import Mathlib.Data.List.Induction
import ProfileCompiler.Proofs.Table

/-!
# The keys of a table in the order of their first occurrence

Putting adds a key at the end if it is not there yet.  So the keys of a table that was built by
putting are the keys that were put, each at its first occurrence (`keys_put` and
`eraseDups_append_singleton`).
-/

namespace ProfileCompiler

namespace Table

variable {κ α : Type} [BEq κ]

lemma keys_put (k : κ) (v : α) (t : Table κ α) :
    keys (put k v t) = if (keys t).any (· == k) then keys t else keys t ++ [k] := by
  induction t with
  | nil => rfl
  | cons e t ih =>
    obtain ⟨j, w⟩ := e
    simp only [keys] at ih ⊢
    by_cases hj : (j == k) = true
    · simp [put, hj]
    · by_cases hany : (t.map (·.1)).any (· == k) = true
      · simp only [hany, if_true] at ih
        simp [put, hj, ih, hany]
      · simp only [hany] at ih
        simp [put, hj, ih, hany]

lemma any_keys (k : κ) (t : Table κ α) : (keys t).any (· == k) = has k t := by
  rw [Bool.eq_iff_iff, has_iff]
  simp [keys]

/-- Erasing a key takes it out of the keys and leaves the others in their order. -/
lemma keys_erase [EquivBEq κ] {t : Table κ α} (h : Distinct t) (k : κ) :
    keys (erase k t) = (keys t).filter fun j => !(k == j) := by
  induction t with
  | nil => rfl
  | cons e t ih =>
    obtain ⟨j, w⟩ := e
    obtain ⟨hothers, ht⟩ := distinct_cons.1 h
    unfold erase
    by_cases hj : (j == k) = true
    · have hk : (k == j) = true := BEq.symm hj
      have hall : ∀ i ∈ keys t, (!(k == i)) = true := by
        intro i hi
        obtain ⟨a, ha, rfl⟩ := List.mem_map.1 hi
        rw [← BEq.congr_left hj, hothers a ha]
        rfl
      rw [if_pos hj]
      simp only [keys, List.map_cons, List.filter_cons, hk, Bool.not_true, Bool.false_eq_true,
        if_false]
      exact (List.filter_eq_self.2 hall).symm
    · have hk : (k == j) = false := by
        rw [BEq.comm]
        exact Bool.eq_false_iff.2 hj
      rw [if_neg hj]
      simp only [keys, List.map_cons, List.filter_cons, hk, Bool.not_false, if_true] at ih ⊢
      rw [ih ht]

end Table

variable {α : Type} [BEq α] [EquivBEq α]

/-- One more element is added at the end unless it occurs before.  Keys that are the same need not
be equal, so the law of the library, which asks for a lawful comparison, does not apply. -/
lemma eraseDups_append_singleton (xs : List α) (a : α) :
    (xs ++ [a]).eraseDups = if xs.any (· == a) then xs.eraseDups else xs.eraseDups ++ [a] := by
  -- `eraseDups` recurses on what is left of the tail, so the induction is on the length.
  induction hn : xs.length using Nat.strongRecOn generalizing xs with
  | _ n ih =>
    subst hn
    cases xs with
    | nil => simp [List.eraseDups_cons]
    | cons x xs =>
      have hlen : (xs.filter fun b => !b == x).length < (x :: xs).length :=
        Nat.lt_succ_of_le (List.length_filter_le _ _)
      rw [List.cons_append, List.eraseDups_cons, List.eraseDups_cons, List.filter_append,
        List.any_cons]
      by_cases hx : (x == a) = true
      · have hax : (a == x) = true := BEq.symm hx
        simp [hx, hax]
      · have hax : (a == x) = false := by
          rw [BEq.comm]
          exact Bool.eq_false_iff.2 hx
        have hany : (xs.filter fun b => !b == x).any (· == a) = xs.any (· == a) := by
          rw [Bool.eq_iff_iff]
          simp only [List.any_eq_true, List.mem_filter, Bool.not_eq_true']
          constructor
          · rintro ⟨b, ⟨hb, -⟩, hba⟩
            exact ⟨b, hb, hba⟩
          · rintro ⟨b, hb, hba⟩
            refine ⟨b, ⟨hb, ?_⟩, hba⟩
            rw [BEq.congr_left hba]
            exact hax
        have hstep := ih _ hlen (xs.filter fun b => !b == x) rfl
        rw [hany] at hstep
        simp only [hx, hax, Bool.false_or, List.filter_cons, List.filter_nil, Bool.not_false,
          if_true, hstep]
        by_cases hany' : xs.any (· == a) = true
        · simp only [hany', if_true]
        · simp [hany']

/-- What is left of a list without its repetitions has the same elements. -/
lemma any_eraseDups (xs : List α) (a : α) : xs.eraseDups.any (· == a) = xs.any (· == a) := by
  induction xs using List.reverseRecOn with
  | nil => rfl
  | append_singleton xs b ih =>
    rw [eraseDups_append_singleton, List.any_append]
    by_cases hb : xs.any (· == b) = true
    · rw [if_pos hb, ih]
      by_cases hba : (b == a) = true
      · have ha : xs.any (· == a) = true := by
          simpa only [BEq.congr_right hba] using hb
        rw [ha, Bool.true_or]
      · simp [hba]
    · rw [if_neg hb, List.any_append, ih]

end ProfileCompiler
