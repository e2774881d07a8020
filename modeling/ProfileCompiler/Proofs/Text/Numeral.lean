import Mathlib.Data.Nat.Digits.Defs
import ProfileCompiler.Proofs.Text.Pieces
import ProfileCompiler.Text.Numeral

/-!
# Decimal numerals

A numeral of ASCII digits is read as the number that its digits stand for, zeros in front
included, unless it has too many digits (`integer?_of_isNumeral`).  Written without zeros in front
a number has no more digits than any numeral of it (`length_toDigits_value_le`), and it can be
written unless these are too many (`decimal?_eq_none_iff`).
-/

namespace ProfileCompiler

namespace Text

variable {c : Char} {cs : List Char}

/-- A numeral of ASCII: one or more digits. -/
def IsNumeral (cs : List Char) : Prop := cs ≠ [] ∧ ∀ c ∈ cs, c.isDigit = true

/-- The number that digits stand for. -/
def value (cs : List Char) : Nat := Nat.ofDigitChars 10 cs 0

instance : DecidablePred IsNumeral := fun cs =>
  decidable_of_iff (cs ≠ [] ∧ cs.all Char.isDigit = true) (by rw [IsNumeral, List.all_eq_true])

/-! ## Digits -/

lemma isBlank_of_isDigit (h : c.isDigit = true) : isBlank c = false := by
  obtain ⟨hlow, hhigh⟩ := Char.isDigit_iff_toNat.1 h
  simp only [Char.reduceToNat] at hlow hhigh
  simp [isBlank]
  omega

lemma toLower_of_isDigit (h : c.isDigit = true) : c.toLower = c := by
  have hhigh := (Char.isDigit_iff_toNat.1 h).2
  simp only [Char.reduceToNat] at hhigh
  refine dif_neg ?_
  rintro ⟨hupper, -⟩
  have hlow : 65 ≤ c.toNat := hupper
  omega

lemma ne_of_isDigit (h : c.isDigit = true) {d : Char} (hd : d.isDigit = false) : c ≠ d := by
  rintro rfl
  exact Bool.false_ne_true (hd.symm.trans h)

lemma digitValue?_of_isDigit (h : c.isDigit = true) : digitValue? c = some (c.toNat - 48) := by
  have hhigh := (Char.isDigit_iff_toNat.1 h).2
  simp only [Char.reduceToNat] at hhigh
  rw [digitValue?, if_pos (by omega), if_pos h]

/-! ## Numerals -/

lemma digits?_of_digits (h : ∀ c ∈ cs, c.isDigit = true) (n : Nat) :
    digits? n cs = some (Nat.ofDigitChars 10 cs n) := by
  induction cs generalizing n with
  | nil => rfl
  | cons c cs ih =>
    obtain ⟨hc, hcs⟩ := List.forall_mem_cons.1 h
    have hnot : c ≠ '_' := ne_of_isDigit hc rfl
    rw [digits?, digitValue?_of_isDigit hc]
    · exact ih hcs _
    · intro d rest heq
      exact absurd heq hnot

lemma natural?_of_isNumeral (h : IsNumeral cs) : natural? cs = some (value cs) := by
  obtain ⟨hne, hdigits⟩ := h
  obtain ⟨c, cs, rfl⟩ := List.exists_cons_of_ne_nil hne
  obtain ⟨hc, hcs⟩ := List.forall_mem_cons.1 hdigits
  rw [natural?, digitValue?_of_isDigit hc]
  simp only [digits?_of_digits hcs, value, Nat.ofDigitChars_cons]
  simp

/-- A numeral of too many digits is no integer; any other one is its number. -/
lemma integer?_of_isNumeral (h : IsNumeral cs) :
    integer? cs = if digitLimit < cs.length then none else some (value cs : Int) := by
  obtain ⟨hne, hdigits⟩ := h
  have hfilter : (cs.filter fun c => (digitValue? c).isSome) = cs :=
    List.filter_eq_self.2 fun c hc => by rw [digitValue?_of_isDigit (hdigits c hc)]; rfl
  rw [integer?, hfilter, strip_eq_self_of_forall fun c hc => isBlank_of_isDigit (hdigits c hc)]
  split
  · rfl
  · obtain ⟨c, rest, rfl⟩ := List.exists_cons_of_ne_nil hne
    have hc := hdigits c List.mem_cons_self
    split
    · rename_i heq
      exact absurd (List.cons.inj heq).1 (ne_of_isDigit hc rfl)
    · rename_i heq
      exact absurd (List.cons.inj heq).1 (ne_of_isDigit hc rfl)
    · rw [natural?_of_isNumeral ⟨hne, hdigits⟩]
      rfl

lemma isOverlong_of_digits (h : ∀ c ∈ cs, c.isDigit = true) :
    isOverlong cs = decide (digitLimit < cs.length) := by
  rw [isOverlong, List.filter_eq_self.2 h]

/-! ## Numbers as they are written -/

lemma isNumeral_toDigits (n : Nat) : IsNumeral (Nat.toDigits 10 n) :=
  ⟨Nat.toDigits_ne_nil, fun _ hc => Nat.isDigit_of_mem_toDigits (by omega) (by omega) hc⟩

@[simp] lemma value_toDigits (n : Nat) : value (Nat.toDigits 10 n) = n :=
  Nat.ofDigitChars_ten_toDigits

lemma value_lt_pow_length (h : ∀ c ∈ cs, c.isDigit = true) : value cs < 10 ^ cs.length := by
  induction cs with
  | nil => exact Nat.one_pos
  | cons c cs ih =>
    obtain ⟨hc, hcs⟩ := List.forall_mem_cons.1 h
    have hhigh := (Char.isDigit_iff_toNat.1 hc).2
    simp only [Char.reduceToNat] at hhigh
    have hrest := ih hcs
    unfold value at hrest ⊢
    rw [Nat.ofDigitChars_cons, Nat.ofDigitChars_eq_ofDigitChars_zero, List.length_cons,
      Nat.pow_succ]
    simp only [Char.reduceToNat]
    have hdigit : 10 ^ cs.length * (10 * 0 + (c.toNat - 48)) ≤ 10 ^ cs.length * 9 :=
      Nat.mul_le_mul_left _ (by omega)
    omega

lemma toList_toString (n : Nat) : (toString (n : Int)).toList = Nat.toDigits 10 n :=
  Nat.toList_repr

/-- A sign is no digit. -/
lemma isOverlong_toString (n : Int) :
    isOverlong (toString n).toList = decide (digitLimit < (Nat.toDigits 10 n.natAbs).length) := by
  cases n with
  | ofNat n =>
    rw [Int.ofNat_eq_natCast, toList_toString, isOverlong_of_digits (isNumeral_toDigits n).2]
    rfl
  | negSucc n =>
    have hsign : (toString (Int.negSucc n)).toList = '-' :: Nat.toDigits 10 (n + 1) := by
      show ("-" ++ toString (n + 1)).toList = _
      rw [String.toList_append]
      exact congrArg (List.cons '-') Nat.toList_repr
    have hdigits := isOverlong_of_digits (isNumeral_toDigits (n + 1)).2
    rw [isOverlong] at hdigits ⊢
    rw [hsign, List.filter_cons_of_neg (by decide)]
    exact hdigits

/-- An integer cannot be written if it has too many digits. -/
lemma decimal?_eq_none_iff {n : Int} :
    decimal? n = none ↔ digitLimit < (Nat.toDigits 10 n.natAbs).length := by
  unfold decimal?
  rw [isOverlong_toString]
  simp

lemma decimal?_natCast {n : Nat} (h : (Nat.toDigits 10 n).length ≤ digitLimit) :
    decimal? (n : Int) = some (toString (n : Int)) := by
  unfold decimal?
  rw [isOverlong_toString, Int.natAbs_natCast, decide_eq_false (Nat.not_lt.2 h)]
  rfl

/-- No numeral of a number is shorter than the one without zeros in front. -/
lemma length_toDigits_value_le (h : IsNumeral cs) :
    (Nat.toDigits 10 (value cs)).length ≤ cs.length :=
  (Nat.length_toDigits_le_iff (by omega) (List.length_pos_iff.2 h.1)).2 (value_lt_pow_length h.2)

end Text

end ProfileCompiler
