/-!
# Binary floating-point numbers

A `Binary64` is a double-precision number other than a NaN, kept as its sign, its integer
significand and its binary exponent.  Rounding a rational to the nearest such number is
exact integer arithmetic (`Binary64.ofRat`), so nothing here rests on the machine's own
floating-point unit.

* `Binary64.ofRat` rounds to nearest, a tie going to the even significand.
* `Binary64.quantity` is the exact value, and two numbers are equal when their quantities
  are: this is where `0.0` and `-0.0` meet.
-/

namespace ProfileCompiler

/-- A double-precision number other than a NaN.  A finite one is
`± significand * 2 ^ exponent`, with `significand < 2 ^ 53`, `-1074 ≤ exponent ≤ 971`, and
`2 ^ 52 ≤ significand` unless the exponent is `-1074`. -/
inductive Binary64 where
  | finite (negative : Bool) (significand : Nat) (exponent : Int)
  | infinite (negative : Bool)
deriving DecidableEq, Repr, Inhabited

/-- An exact numeric value: a rational, or one of the two infinities. -/
inductive Quantity where
  | finite (value : Rat)
  | infinite (negative : Bool)
deriving DecidableEq, Repr

/-- The rational `2 ^ e`. -/
def twoTo (e : Int) : Rat :=
  if 0 ≤ e then (Nat.pow 2 e.toNat : Rat) else 1 / (Nat.pow 2 (-e).toNat : Rat)

/-- The rational `10 ^ e`. -/
def tenTo (e : Int) : Rat :=
  if 0 ≤ e then (Nat.pow 10 e.toNat : Rat) else 1 / (Nat.pow 10 (-e).toNat : Rat)

/-- The integer nearest to `q`, a tie going to the even one. -/
def roundHalfEven (q : Rat) : Int :=
  let below := q.floor
  let rest := q - below
  if rest < 1 / 2 then below
  else if 1 / 2 < rest then below + 1
  else if below % 2 = 0 then below else below + 1

/-- The greatest `e` with `2 ^ e ≤ q`, for a positive `q`. -/
def floorLog2 (q : Rat) : Int :=
  let guess := (Nat.log2 q.num.toNat : Int) - (Nat.log2 q.den : Int)
  if twoTo guess ≤ q then guess else guess - 1

namespace Binary64

/-- The least exponent of a finite number. -/
def minExponent : Int := -1074

/-- The greatest exponent of a finite number. -/
def maxExponent : Int := 971

/-- The magnitude `q ≥ 0` rounded to the nearest number, with the given sign.  A significand
that rounds up to `2 ^ 53` moves to the next exponent; beyond the last exponent the result is
infinite. -/
def ofMagnitude (negative : Bool) (q : Rat) : Binary64 :=
  if q ≤ 0 then .finite negative 0 minExponent
  else
    let exponent := max minExponent (floorLog2 q - 52)
    let significand := (roundHalfEven (q / twoTo exponent)).toNat
    let carried := significand = Nat.pow 2 53
    let significand := if carried then Nat.pow 2 52 else significand
    let exponent := if carried then exponent + 1 else exponent
    if maxExponent < exponent then .infinite negative
    else .finite negative significand exponent

/-- The nearest number to a rational. -/
def ofRat (q : Rat) : Binary64 :=
  if q < 0 then ofMagnitude true (-q) else ofMagnitude false q

/-- The nearest number to `± digits * 10 ^ exponent`.  Magnitudes that are certain to
overflow or to vanish are answered without computing the power. -/
def ofDecimal (negative : Bool) (digits : Nat) (exponent : Int) : Binary64 :=
  let size : Int := exponent + (Nat.repr digits).length
  if digits = 0 then .finite negative 0 minExponent
  else if 310 < size then .infinite negative
  else if size < -330 then .finite negative 0 minExponent
  else ofMagnitude negative (digits * tenTo exponent)

/-- The exact value. -/
def quantity : Binary64 → Quantity
  | .finite negative significand exponent =>
    let magnitude := significand * twoTo exponent
    .finite (if negative then -magnitude else magnitude)
  | .infinite negative => .infinite negative

/-- Positive zero. -/
def zero : Binary64 := .finite false 0 minExponent

/-- Neither `0.0` nor `-0.0`. -/
def isNonzero : Binary64 → Bool
  | .finite _ significand _ => significand != 0
  | .infinite _ => true

end Binary64

end ProfileCompiler
