import ProfileCompiler.Number.Binary64
import ProfileCompiler.Text.Pieces

/-!
# Decimal numerals of any script

`Text.integer?` reads a signed decimal integer written with the decimal digits of any
script, single underscores between digits being allowed, and `Text.decimal?` writes one.  No
integer is read from, or written with, more digits than `Text.digitLimit`.  `Text.integerIn?`
reads an integer in another base, which has no such limit, and `Text.fraction?` a number with a
point.
-/

namespace ProfileCompiler

namespace Text

/-- The greatest count of decimal digits of an integer that is read or written.  Zeros in front
count as well. -/
def digitLimit : Nat := 4300

/-- Whether the text of an integer has more digits than that. -/
def isOverlong (digits : List Char) : Bool := digitLimit < (digits.filter Char.isDigit).length

/-- An integer in decimal digits, if they are not too many. -/
def decimal? (n : Int) : Option String :=
  if isOverlong (toString n).toList then none else some (toString n)

/-- What is to be written, or the given fault where it cannot be. -/
def written {ε α : Type} (fault : ε) : Option α → Except ε α
  | some form => .ok form
  | none => .error fault

/-- The value of a hexadecimal digit of ASCII. -/
def hexValue? (c : Char) : Option Nat :=
  if c.isDigit then some (c.toNat - 48)
  else if 'a' ≤ c ∧ c ≤ 'f' then some (c.toNat - 87)
  else if 'A' ≤ c ∧ c ≤ 'F' then some (c.toNat - 55)
  else none

/-- The digit zero of every script that has decimal digits; the nine digits after it follow
in order. -/
def decimalZeros : List Nat :=
  [0x30, 0x660, 0x6F0, 0x7C0, 0x966, 0x9E6, 0xA66, 0xAE6, 0xB66, 0xBE6, 0xC66, 0xCE6, 0xD66,
    0xDE6, 0xE50, 0xED0, 0xF20, 0x1040, 0x1090, 0x17E0, 0x1810, 0x1946, 0x19D0, 0x1A80, 0x1A90,
    0x1B50, 0x1BB0, 0x1C40, 0x1C50, 0xA620, 0xA8D0, 0xA900, 0xA9D0, 0xA9F0, 0xAA50, 0xABF0,
    0xFF10, 0x104A0, 0x10D30, 0x11066, 0x110F0, 0x11136, 0x111D0, 0x112F0, 0x11450, 0x114D0,
    0x11650, 0x116C0, 0x11730, 0x118E0, 0x11950, 0x11C50, 0x11D50, 0x11DA0, 0x16A60, 0x16AC0,
    0x16B50, 0x1D7CE, 0x1D7D8, 0x1D7E2, 0x1D7EC, 0x1D7F6, 0x1E140, 0x1E2F0, 0x1E950, 0x1FBF0]

/-- The value of a decimal digit of any script. -/
def digitValue? (c : Char) : Option Nat :=
  if c.toNat < 0x80 then
    if c.isDigit then some (c.toNat - 48) else none
  else
    (decimalZeros.find? fun first => first ≤ c.toNat && c.toNat ≤ first + 9).map (c.toNat - ·)

/-- The digits of a numeral, the number read so far being `value`.  An underscore is passed
over between two digits only. -/
def digits? (value : Nat) : List Char → Option Nat
  | [] => some value
  | '_' :: c :: rest =>
    match digitValue? c with
    | some d => digits? (10 * value + d) rest
    | none => none
  | c :: rest =>
    match digitValue? c with
    | some d => digits? (10 * value + d) rest
    | none => none

/-- An unsigned numeral: a digit, then digits and single underscores between digits. -/
def natural? : List Char → Option Nat
  | [] => none
  | c :: rest =>
    match digitValue? c with
    | some d => digits? d rest
    | none => none

/-- A signed numeral, blanks around it being passed over. -/
def integer? (cs : List Char) : Option Int :=
  if digitLimit < (cs.filter fun c => (digitValue? c).isSome).length then none
  else
    match strip cs with
    | '-' :: rest => (natural? rest).map fun n => -(n : Int)
    | '+' :: rest => (natural? rest).map Int.ofNat
    | rest => (natural? rest).map Int.ofNat

/-- The sign in front of a text, and the text after it. -/
def signed : List Char → Bool × List Char
  | '-' :: rest => (true, rest)
  | '+' :: rest => (false, rest)
  | cs => (false, cs)

/-- The value of a digit of a base up to sixteen. -/
def baseDigit? (base : Nat) (c : Char) : Option Nat :=
  let value? :=
    match digitValue? c with
    | some d => some d
    | none =>
      if 'a' ≤ c ∧ c ≤ 'f' then some (c.toNat - 87)
      else if 'A' ≤ c ∧ c ≤ 'F' then some (c.toNat - 55)
      else none
  value?.filter fun d => d < base

/-- The letter that marks a base after a zero. -/
def baseMark : Nat → Option Char
  | 2 => some 'b'
  | 8 => some 'o'
  | 16 => some 'x'
  | _ => none

/-- The digits after the mark of a base, if it is there. -/
def withoutMark (base : Nat) : List Char → List Char
  | '0' :: c :: rest => if baseMark base == some c.toLower then rest else '0' :: c :: rest
  | cs => cs

/-- A signed numeral in a base, blanks around it being passed over.  The mark of the base may
stand in front of the digits. -/
def integerIn? (base : Nat) (cs : List Char) : Option Int := do
  let (negative, body) := signed (strip cs)
  let digits ← (withoutMark base body).mapM (baseDigit? base)
  if digits.isEmpty then none
  else
    let n := digits.foldl (fun n d => base * n + d) 0
    some (if negative then -(n : Int) else n)

/-- The words for an infinite number, in small letters. -/
def infinityWords : List String := ["inf", "infinity"]

/-- The power of ten after an exponent mark with or without a sign; nothing is the power
zero. -/
def power? : List Char → Option Int
  | [] => some 0
  | mark :: rest =>
    let (negative, digits) := signed rest
    if mark.toLower == 'e' && !digits.isEmpty then
      (digits.mapM digitValue?).map fun ds =>
        let n : Nat := ds.foldl (fun n d => 10 * n + d) 0
        if negative then -(n : Int) else n
    else none

/-- A signed number with or without a point and an exponent, or a word for an infinite one,
blanks around it being passed over. -/
def fraction? (cs : List Char) : Option Binary64 := do
  let (negative, body) := signed (strip cs)
  if infinityWords.contains (String.ofList (lower body)) then some (.infinite negative)
  else
    let isDigit (c : Char) : Bool := (digitValue? c).isSome
    let whole := body.takeWhile isDigit
    let rest := body.dropWhile isDigit
    let (decimals, rest) :=
      match rest with
      | '.' :: rest => (rest.takeWhile isDigit, rest.dropWhile isDigit)
      | rest => ([], rest)
    let digits ← (whole ++ decimals).mapM digitValue?
    if digits.isEmpty then none
    else
      let power ← power? rest
      let n := digits.foldl (fun n d => 10 * n + d) 0
      some (.ofDecimal negative n (power - decimals.length))

end Text

end ProfileCompiler
