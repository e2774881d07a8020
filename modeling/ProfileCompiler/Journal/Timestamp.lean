import ProfileCompiler.Number.Binary64

/-!
# Timestamps

A point in time is a number of seconds since the start of 1970.  Its timestamp gives day and
time in UTC; microseconds are given unless there are none.  Only the years from 1 to 9999 have
timestamps.
-/

namespace ProfileCompiler

namespace Timestamp

/-- Whole seconds and microseconds. -/
structure Moment where
  seconds : Int
  micros : Nat
deriving DecidableEq, Repr

/-- Why a point in time has no timestamp. -/
inductive TimestampFault where
  /-- Its seconds are not counted in 64 bits. -/
  | beyondSeconds
  /-- Its year, counted from 1900, is not counted in 32 bits. -/
  | beyondCalendar
  /-- Its year does not have four digits, or is not one of this era. -/
  | beyondYears
deriving DecidableEq, Repr

/-- The moment after a number of seconds.  The fraction of a second, scaled to microseconds,
is rounded first to the nearest binary number and then to the nearest integer. -/
def ofSeconds (q : Rat) : Moment :=
  let whole : Int := q.num.tdiv q.den
  let scaled : Rat :=
    match (Binary64.ofRat ((q - whole) * 1000000)).quantity with
    | .finite x => x
    | .infinite _ => 0
  let micros := roundHalfEven scaled
  if 1000000 ≤ micros then ⟨whole + 1, (micros - 1000000).toNat⟩
  else if micros < 0 then ⟨whole - 1, (micros + 1000000).toNat⟩
  else ⟨whole, micros.toNat⟩

/-- The year, month and day of the day that is a number of days after the start of 1970.  Years
are counted from March, in eras of four hundred years. -/
def civil (day : Int) : Int × Nat × Nat :=
  let z := day + 719468
  let era := z.fdiv 146097
  let dayOfEra := (z.fmod 146097).toNat
  let yearOfEra :=
    (dayOfEra - dayOfEra / 1460 + dayOfEra / 36524 - dayOfEra / 146096) / 365
  let dayOfYear := dayOfEra - (365 * yearOfEra + yearOfEra / 4 - yearOfEra / 100)
  let shifted := (5 * dayOfYear + 2) / 153
  let date := dayOfYear - (153 * shifted + 2) / 5 + 1
  let month := if shifted < 10 then shifted + 3 else shifted - 9
  let year := yearOfEra + era * 400
  (if month ≤ 2 then year + 1 else year, month, date)

/-- A number with zeros in front up to a width. -/
def padded (width n : Nat) : String :=
  let digits := toString n
  String.ofList (List.replicate (width - digits.length) '0') ++ digits

/-- The timestamp of a moment. -/
def text (m : Moment) : Except TimestampFault String :=
  let (year, month, date) := civil (m.seconds.fdiv 86400)
  let time := (m.seconds.fmod 86400).toNat
  let micros := if m.micros = 0 then "" else "." ++ padded 6 m.micros
  if m.seconds < -Int.pow 2 63 ∨ Int.pow 2 63 ≤ m.seconds then .error .beyondSeconds
  else if year - 1900 < -Int.pow 2 31 ∨ Int.pow 2 31 ≤ year - 1900 then .error .beyondCalendar
  else if year < 1 ∨ 9999 < year then .error .beyondYears
  else .ok (padded 4 year.toNat ++ "-" ++ padded 2 month ++ "-" ++ padded 2 date ++ "T" ++
    padded 2 (time / 3600) ++ ":" ++ padded 2 (time / 60 % 60) ++ ":" ++
    padded 2 (time % 60) ++ micros ++ "+00:00")

/-- The timestamp of the point in time after an amount of seconds. -/
def ofQuantity : Quantity → Except TimestampFault String
  | .finite q => text (ofSeconds q)
  | .infinite _ => .error .beyondSeconds

end Timestamp

end ProfileCompiler
