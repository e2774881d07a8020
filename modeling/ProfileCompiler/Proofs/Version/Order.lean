import Mathlib.Tactic.Common
import ProfileCompiler.Version.Clause

/-!
# Between a release and a raised one

A release compares number by number, missing numbers being zeros.  So what is at least a release,
and less than this release cut off behind one of its numbers and raised there, has the same numbers
up to this one (`compareRelease_raised_eq_lt_iff`).

For versions it matters that nothing with the release of the raised version is below its first
development release (`order_opening_eq_lt_iff`): what is below it has a smaller release, and no
pre-release of the raised version comes in.
-/

namespace ProfileCompiler

/-! ## Releases -/

/-- The numbers before a position, and the number there raised by one. -/
def raisedAt (ns : List Nat) (i : Nat) : List Nat := ns.take i ++ [ns.getD i 0 + 1]

/-- Two releases have the same number at a position, missing numbers being zeros. -/
def AgreeAt (r s : List Nat) (i : Nat) : Prop := r.getD i 0 = s.getD i 0

instance (r s : List Nat) (i : Nat) : Decidable (AgreeAt r s i) :=
  inferInstanceAs (Decidable (_ = _))

variable {r s : List Nat} {i : Nat}

lemma agreeAt_zero : AgreeAt r s 0 ↔ r.headD 0 = s.headD 0 := by
  unfold AgreeAt
  cases r <;> cases s <;> rfl

lemma agreeAt_succ : AgreeAt r s (i + 1) ↔ AgreeAt r.tail s.tail i := by
  unfold AgreeAt
  cases r <;> cases s <;> rfl

/-- Releases agree up to a position if they do at the first number and in what follows it. -/
lemma forall_le_agreeAt_succ :
    (∀ j ≤ i + 1, AgreeAt r s j) ↔ r.headD 0 = s.headD 0 ∧ ∀ j ≤ i, AgreeAt r.tail s.tail j := by
  constructor
  · intro h
    exact ⟨agreeAt_zero.1 (h 0 (by omega)), fun j hj => agreeAt_succ.1 (h (j + 1) (by omega))⟩
  · rintro ⟨hfirst, hrest⟩ j hj
    cases j with
    | zero => exact agreeAt_zero.2 hfirst
    | succ j => exact agreeAt_succ.2 (hrest j (by omega))

/-- Releases are compared by their first numbers, and then by what follows these. -/
lemma compareRelease_eq_then (r s : List Nat) :
    compareRelease r s =
      (compare (r.headD 0) (s.headD 0)).then (compareRelease r.tail s.tail) := by
  cases r <;> cases s <;> simp [compareRelease]

lemma compareRelease_eq_lt_iff :
    compareRelease r s = .lt ↔ r.headD 0 < s.headD 0 ∨
      r.headD 0 = s.headD 0 ∧ compareRelease r.tail s.tail = .lt := by
  rw [compareRelease_eq_then, Ordering.then_eq_lt, Nat.compare_eq_lt, Nat.compare_eq_eq]

/-- No release is less than one of zeros. -/
lemma compareRelease_zeros_ne_lt (h : ∀ n ∈ s, n = 0) (r : List Nat) :
    compareRelease r s ≠ .lt := by
  induction s generalizing r with
  | nil =>
    induction r with
    | nil => simp [compareRelease]
    | cons n r ih =>
      rw [ne_eq, compareRelease_eq_lt_iff]
      simp [ih]
  | cons m s ih =>
    obtain ⟨rfl, hs⟩ := List.forall_mem_cons.1 h
    rw [ne_eq, compareRelease_eq_lt_iff]
    simp [ih hs]

lemma raisedAt_cons_succ (n : Nat) (ns : List Nat) (i : Nat) :
    raisedAt (n :: ns) (i + 1) = n :: raisedAt ns i := rfl

/-- What is at least a release is below the one raised at a position if it agrees with the release
up to there. -/
theorem compareRelease_raised_eq_lt_iff (hi : i < s.length) (h : compareRelease r s ≠ .lt) :
    compareRelease r (raisedAt s i) = .lt ↔ ∀ j ≤ i, AgreeAt r s j := by
  induction i generalizing r s with
  | zero =>
    rw [ne_eq, compareRelease_eq_lt_iff, not_or, Nat.not_lt] at h
    have hhead : s.getD 0 0 = s.headD 0 := by cases s <;> rfl
    simp only [raisedAt, List.take_zero, List.nil_append, Nat.le_zero, forall_eq, agreeAt_zero]
    rw [compareRelease_eq_lt_iff]
    simp only [List.headD_cons, List.tail_cons, hhead,
      compareRelease_zeros_ne_lt (List.forall_mem_nil _), and_false, or_false]
    omega
  | succ i ih =>
    obtain ⟨n, s, rfl⟩ := List.exists_cons_of_length_pos (by omega : 0 < s.length)
    rw [ne_eq, compareRelease_eq_lt_iff, not_or, Nat.not_lt, not_and] at h
    obtain ⟨hle, hrest⟩ := h
    rw [raisedAt_cons_succ, compareRelease_eq_lt_iff, forall_le_agreeAt_succ]
    simp only [List.headD_cons, List.tail_cons] at hle hrest ⊢
    rw [or_iff_right (by omega)]
    exact and_congr_right fun heq => ih (by simpa using hi) (hrest heq)

/-- Releases that are the same agree everywhere. -/
lemma agreeAt_of_compareRelease_eq (h : compareRelease r s = .eq) (i : Nat) : AgreeAt r s i := by
  induction i generalizing r s with
  | zero =>
    rw [compareRelease_eq_then, Ordering.then_eq_eq, Nat.compare_eq_eq] at h
    exact agreeAt_zero.2 h.1
  | succ i ih =>
    rw [compareRelease_eq_then, Ordering.then_eq_eq] at h
    exact agreeAt_succ.2 (ih h.2)

/-- The raised number is not the one of the release. -/
lemma not_agreeAt_raisedAt (hi : i < s.length) : ¬ AgreeAt (raisedAt s i) s i := by
  have hlength : (s.take i).length = i := List.length_take_of_le (Nat.le_of_lt hi)
  have hraised : (raisedAt s i).getD i 0 = s.getD i 0 + 1 := by
    rw [raisedAt, List.getD_eq_getElem?_getD, List.getElem?_append_right (Nat.le_of_eq hlength),
      hlength, Nat.sub_self]
    rfl
  unfold AgreeAt
  omega

/-- A release starts with numbers if it agrees with them at all their positions. -/
lemma startsWith_iff : Clause.startsWith s r = true ↔ ∀ i < s.length, AgreeAt r s i := by
  induction s generalizing r with
  | nil => simp [Clause.startsWith]
  | cons n s ih =>
    have hstep : Clause.startsWith (n :: s) r = (n == r.headD 0 && Clause.startsWith s r.tail) := by
      cases r with
      | nil => simp [Clause.startsWith]
      | cons m r => rfl
    rw [hstep, Bool.and_eq_true, beq_iff_eq, ih]
    constructor
    · rintro ⟨hfirst, hrest⟩ i hi
      cases i with
      | zero => exact agreeAt_zero.2 hfirst.symm
      | succ i => exact agreeAt_succ.2 (hrest i (by simpa using hi))
    · intro h
      exact ⟨(agreeAt_zero.1 (h 0 (by simp))).symm, fun i hi =>
        agreeAt_succ.1 (h (i + 1) (by simpa using hi))⟩

/-! ## Versions -/

lemma compareLocal_nil_ne_lt (parts : List LocalPart) : compareLocal parts [] ≠ .lt := by
  cases parts <;> simp [compareLocal]

namespace Version

/-- The version of a release alone. -/
def ofRelease (ns : List Nat) : Version := ⟨0, ns, none, none, none, []⟩

variable {v w : Version} {ns : List Nat}

/-- The local label makes no version less than one without a label. -/
lemma withoutLocal_order_eq_lt_iff (hw : w.localParts = []) :
    v.withoutLocal.order w = .lt ↔ v.order w = .lt := by
  unfold order
  simp only [Ordering.then_eq_lt, hw, compareLocal_nil_ne_lt, and_false, or_false]
  rfl

/-- A version is below what leads up to a release if its own release is less. -/
lemma order_opening_eq_lt_iff :
    v.order (ofRelease ns).opening = .lt ↔ v.epoch = 0 ∧ compareRelease v.release ns = .lt := by
  have hpre : compareRelease v.preRank (ofRelease ns).opening.preRank ≠ .lt :=
    compareRelease_zeros_ne_lt (by decide : ∀ n ∈ [0], n = 0) _
  have hpost : (ofRelease ns).opening.postRank = 0 := rfl
  have hdev : compareRelease v.devRank (ofRelease ns).opening.devRank ≠ .lt :=
    compareRelease_zeros_ne_lt (by decide : ∀ n ∈ [0, 0], n = 0) _
  have hlocal : compareLocal v.localParts (ofRelease ns).opening.localParts ≠ .lt :=
    compareLocal_nil_ne_lt _
  have hepoch : (ofRelease ns).opening.epoch = 0 := rfl
  have hrelease : (ofRelease ns).opening.release = ns := rfl
  unfold order
  simp only [Ordering.then_eq_lt, Nat.compare_eq_lt, Nat.compare_eq_eq, hepoch, hrelease, hpost,
    Nat.not_lt_zero, false_or, hpre, hdev, hlocal, and_false, or_false]

/-- What is not less than a release has a release that is not less. -/
lemma compareRelease_ne_lt (hv : v.epoch = 0) (h : v.order (ofRelease ns) ≠ .lt) :
    compareRelease v.release ns ≠ .lt := by
  intro hlt
  refine h ?_
  unfold order
  simp [hv, ofRelease, hlt]

end Version

end ProfileCompiler
