import ProfileCompiler.Proofs.Table

/-!
# Tables in another order

Tables with distinct keys that are permutations of one another hold the same: they read the same
at every key (`get?_of_perm`), and stay permutations of one another under `put` (`put_perm`).
What is put at different keys can be put in either order (`put_put_perm`).
-/

namespace ProfileCompiler

namespace Table

variable {κ α : Type} [BEq κ]

/-- An entry can be moved to the front. -/
lemma exists_perm_cons_erase {k : κ} {v : α} {t : Table κ α} (h : get? k t = some v) :
    ∃ j, (j == k) = true ∧ t.Perm ((j, v) :: erase k t) := by
  induction t with
  | nil => cases h
  | cons e t ih =>
    obtain ⟨i, w⟩ := e
    rw [get?_cons] at h
    unfold erase
    by_cases hi : (i == k) = true
    · rw [if_pos hi] at h ⊢
      cases h
      exact ⟨i, hi, List.Perm.refl _⟩
    · rw [if_neg hi] at h ⊢
      obtain ⟨j, hj, hperm⟩ := ih h
      exact ⟨j, hj, (hperm.cons _).trans (List.Perm.swap _ _ _)⟩

variable [EquivBEq κ] {s t : Table κ α}

lemma distinct_of_perm (h : s.Perm t) (hs : Distinct s) : Distinct t := by
  refine h.pairwise hs fun {a b} hab => ?_
  rw [BEq.comm]
  exact hab

/-- A table with distinct keys reads the same in every order. -/
lemma get?_of_perm (h : s.Perm t) (hs : Distinct s) (k : κ) : get? k s = get? k t := by
  induction h with
  | nil => rfl
  | cons e _ ih => rw [get?_cons, get?_cons, ih (distinct_cons.1 hs).2]
  | swap a b t =>
    have hba : (b.1 == a.1) = false := (distinct_cons.1 hs).1 a List.mem_cons_self
    obtain ⟨i, u⟩ := a
    obtain ⟨j, w⟩ := b
    simp only [get?_cons]
    by_cases hi : (i == k) = true
    · have hj : ¬ (j == k) = true := fun hj =>
        Bool.false_ne_true (hba.symm.trans (BEq.trans hj (BEq.symm hi)))
      simp only [if_pos hi, if_neg hj]
    · simp only [if_neg hi]
  | trans h₁ _ ih₁ ih₂ => rw [ih₁ hs, ih₂ (distinct_of_perm h₁ hs)]

/-! ## Putting -/

lemma put_perm (h : s.Perm t) (hs : Distinct s) (k : κ) (v : α) :
    (put k v s).Perm (put k v t) := by
  induction h with
  | nil => exact List.Perm.refl _
  | cons e hst ih =>
    unfold put
    split
    · exact hst.cons _
    · exact (ih (distinct_cons.1 hs).2).cons _
  | swap a b t =>
    have hba : (b.1 == a.1) = false := (distinct_cons.1 hs).1 a List.mem_cons_self
    obtain ⟨i, u⟩ := a
    obtain ⟨j, w⟩ := b
    by_cases hi : (i == k) = true
    · have hj : ¬ (j == k) = true := fun hj =>
        Bool.false_ne_true (hba.symm.trans (BEq.trans hj (BEq.symm hi)))
      simpa [put, hi, hj] using List.Perm.swap _ _ _
    · by_cases hj : (j == k) = true <;> simpa [put, hi, hj] using List.Perm.swap _ _ _
  | trans h₁ _ ih₁ ih₂ => exact (ih₁ hs).trans (ih₂ (distinct_of_perm h₁ hs))

/-- What is put at different keys may be put in either order. -/
lemma put_put_perm {k k' : κ} (h : (k == k') = false) (v w : α) (t : Table κ α) :
    (put k v (put k' w t)).Perm (put k' w (put k v t)) := by
  have h' : (k' == k) = false := by
    rw [BEq.comm]
    exact h
  induction t with
  | nil => simpa [put, h, h'] using List.Perm.swap _ _ _
  | cons e t ih =>
    obtain ⟨j, u⟩ := e
    by_cases hj : (j == k) = true
    · have hj' : (j == k') = false := by
        rw [BEq.congr_left hj]
        exact h
      simp [put, hj, hj']
    · by_cases hj' : (j == k') = true
      · simp [put, hj, hj']
      · simpa [put, hj, hj'] using ih.cons (j, u)

end Table

end ProfileCompiler
