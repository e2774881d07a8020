import ProfileCompiler.Number.Shortest

/-!
# Rounded decimal forms

A magnitude is written with a fixed number of decimals (`fixedText`), with a fixed number of
significant digits and an exponent (`scientificText`), or in whichever of the two layouts suits
its size (`generalText`).  The exact value is rounded, a tie going to the even digit.  Where
nothing follows the decimal point it is left out, unless it is to be kept.
-/

namespace ProfileCompiler

/-- Digits before and after a decimal point. -/
def pointed (keepPoint : Bool) (whole fraction : List Char) : List Char :=
  if fraction.isEmpty && !keepPoint then whole else whole ++ '.' :: fraction

/-- A magnitude with a fixed number of decimals. -/
def fixedText (keepPoint : Bool) (decimals : Nat) (q : Rat) : List Char :=
  let digits := Nat.toDigits 10 (roundHalfEven (q * Nat.pow 10 decimals)).toNat
  let digits := List.replicate (decimals + 1 - digits.length) '0' ++ digits
  let size := digits.length - decimals
  pointed keepPoint (digits.take size) (digits.drop size)

/-- A magnitude rounded to a positive count of significant digits.  Digits that round up to a
further place move the point. -/
def DecimalDigits.ofMagnitude (count : Nat) (q : Rat) : DecimalDigits :=
  if q ≤ 0 then ⟨List.replicate count '0', 1⟩
  else
    let point := decimalPoint q
    let number := (roundHalfEven (q * tenTo (count - point))).toNat
    if number = Nat.pow 10 count then ⟨'1' :: List.replicate (count - 1) '0', point + 1⟩
    else ⟨Nat.toDigits 10 number, point⟩

/-- One digit before the point, a fixed number of decimals, and an exponent. -/
def scientificText (keepPoint : Bool) (decimals : Nat) (q : Rat) : List Char :=
  let d := DecimalDigits.ofMagnitude (decimals + 1) q
  pointed keepPoint (d.digits.take 1) (d.digits.drop 1) ++ exponentText (d.point - 1)

/-- A count of significant digits, laid out positionally when the decimal exponent is at least
-4 and less than the count, and with an exponent otherwise.  Zeros at the end are dropped
unless the point is to be kept. -/
def generalText (keepPoint : Bool) (count : Nat) (q : Rat) : List Char :=
  let count := max 1 count
  let d := DecimalDigits.ofMagnitude count q
  let digits := if keepPoint then d.digits else Binary64.dropTrailingZeros d.digits
  if d.point - 1 < -4 ∨ count ≤ d.point - 1 then
    pointed keepPoint (digits.take 1) (digits.drop 1) ++ exponentText (d.point - 1)
  else if d.point ≤ 0 then
    pointed keepPoint ['0'] (List.replicate (-d.point).toNat '0' ++ digits)
  else
    let size := d.point.toNat
    let whole := digits.take size
    pointed keepPoint (whole ++ List.replicate (size - whole.length) '0') (digits.drop size)

end ProfileCompiler
