import ProfileCompiler.Number.Binary64

/-!
# The shortest decimal form of a floating-point number

A finite number is written with the fewest digits that read back as the same number, and
with the closest such digits to its value.  `Binary64.shortest` finds the digits,
`Binary64.text` lays them out.

For each digit count from one to seventeen the two neighbours of the value on that decimal
grid are tested against the interval of reals that round to the number; the first grid with
a hit wins.
-/

namespace ProfileCompiler

/-- A positive decimal `0.d₁d₂…dₙ * 10 ^ point`: the digits, and where the point stands
counted from the first digit. -/
structure DecimalDigits where
  digits : List Char
  point : Int
deriving DecidableEq, Repr

/-- The number of decimal digits before the point of a positive rational: the least `k` with
`q < 10 ^ k`. -/
def decimalPoint (q : Rat) : Int :=
  let guess : Int :=
    ((Nat.repr q.num.toNat).length : Int) - ((Nat.repr q.den).length : Int)
  if tenTo guess ≤ q then guess + 1 else guess

namespace Binary64

/-- The ends of the interval of reals that round to `significand * 2 ^ exponent`, and whether
the ends belong to it.  The gap below a power of two is half the gap above it. -/
def interval (significand : Nat) (exponent : Int) : Rat × Rat × Bool :=
  let quarter := twoTo (exponent - 2)
  let below : Nat := if significand = Nat.pow 2 52 ∧ minExponent < exponent then 1 else 2
  ((4 * (significand : Rat) - below) * quarter, (4 * (significand : Rat) + 2) * quarter,
    significand % 2 = 0)

/-- Whether `q` reads back as `significand * 2 ^ exponent`. -/
def readsBack (significand : Nat) (exponent : Int) (q : Rat) : Bool :=
  let (low, high, closed) := interval significand exponent
  (low < q && q < high) || (closed && (q == low || q == high))

/-- The neighbours of `q` on the grid of multiples of `unit` that read back, the nearer one
first taken; a tie goes to the even neighbour. -/
def onGrid? (significand : Nat) (exponent : Int) (q unit : Rat) : Option Nat :=
  let low := (q / unit).floor.toNat
  let high := low + 1
  let lowFits := readsBack significand exponent (low * unit)
  let highFits := readsBack significand exponent (high * unit)
  if lowFits && highFits then
    let down := q - low * unit
    let up := high * unit - q
    if down < up then some low
    else if up < down then some high
    else if low % 2 = 0 then some low else some high
  else if lowFits then some low
  else if highFits then some high
  else none

/-- The first digit count with a hit, tried in turn. -/
def shortestFrom (significand : Nat) (exponent : Int) (q : Rat) (point : Int) :
    List Nat → Nat × Nat
  | [] => (0, 17)
  | count :: more =>
    match onGrid? significand exponent q (tenTo (point - count)) with
    | some digits => (digits, count)
    | none => shortestFrom significand exponent q point more

/-- Digits without the zeros at their end. -/
def dropTrailingZeros (digits : List Char) : List Char :=
  (digits.reverse.dropWhile (· == '0')).reverse

/-- The shortest digits of a positive finite number. -/
def shortest (significand : Nat) (exponent : Int) : DecimalDigits :=
  let q := significand * twoTo exponent
  let point := decimalPoint q
  let (number, count) :=
    shortestFrom significand exponent q point ((List.range 17).map (· + 1))
  let digits := (Nat.repr number).toList
  ⟨dropTrailingZeros digits, point + (digits.length - count)⟩

end Binary64

/-- Digits laid out with a point among them, or before or after them. -/
def DecimalDigits.positional (d : DecimalDigits) : List Char :=
  if d.point ≤ 0 then
    ['0', '.'] ++ List.replicate (-d.point).toNat '0' ++ d.digits
  else if d.digits.length ≤ d.point.toNat then
    d.digits ++ List.replicate (d.point.toNat - d.digits.length) '0' ++ ['.', '0']
  else
    d.digits.take d.point.toNat ++ ['.'] ++ d.digits.drop d.point.toNat

/-- A decimal exponent with its sign and at least two digits. -/
def exponentText (exponent : Int) : List Char :=
  let size := (Nat.repr exponent.natAbs).toList
  let padded := if size.length < 2 then '0' :: size else size
  ['e', if exponent < 0 then '-' else '+'] ++ padded

/-- Digits laid out with one digit before the point and an exponent. -/
def DecimalDigits.scientific (d : DecimalDigits) : List Char :=
  let mantissa :=
    match d.digits with
    | [] => ['0']
    | [one] => [one]
    | first :: more => first :: '.' :: more
  mantissa ++ exponentText (d.point - 1)

/-- Digits laid out positionally for decimal exponents from -4 to 15 and with an exponent
otherwise. -/
def DecimalDigits.layout (d : DecimalDigits) : List Char :=
  if -4 ≤ d.point - 1 ∧ d.point - 1 < 16 then d.positional else d.scientific

namespace Binary64

/-- The written form of a number; the infinities are written with the word given. -/
def textWith (infinity : String) : Binary64 → String
  | .infinite negative => (if negative then "-" else "") ++ infinity
  | .finite negative significand exponent =>
    let sign := if negative then ['-'] else []
    if significand = 0 then String.ofList (sign ++ ['0', '.', '0'])
    else String.ofList (sign ++ (shortest significand exponent).layout)

/-- The written form of a number. -/
def text (x : Binary64) : String := x.textWith "inf"

end Binary64

end ProfileCompiler
