import ProfileCompiler.Merge
import ProfileCompiler.Proofs.Text.Pieces
import ProfileCompiler.Proofs.WellFormed

/-!
# Merging key by key

A merge takes in one entry after the other, but at each key it can be followed alone: an entry
either removes what stands there, or is merged with it, or leaves it (`Merge.stepAt`), and what
the merge has there in the end is the fold of these steps (`get?_mergeEntries_eq_foldl`).

For incoming entries with different keys the fold has a closed form where the key is not given
together with its knockout key: the given value is merged (`get?_mergeEntries_of_given`), or the
key is removed, or it stays as it was (`get?_mergeEntries_of_not_given`).
-/

namespace ProfileCompiler

/-- A knockout key is the mark followed by the key that it removes. -/
lemma knockedOut?_eq_some_iff {m : String} {k gone : Scalar} :
    knockedOut? (some m) k = some gone ↔ ∃ s, k = .text (m ++ s) ∧ gone = .text s := by
  cases k with
  | text s =>
    simp only [knockedOut?, Option.map_eq_some_iff, Text.after?_eq_some_iff, Scalar.text.injEq,
      eq_comm (a := gone)]
  | null | bool | int | float => simp [knockedOut?]

lemma knockedOut?_congr {a b : Scalar} (h : (a == b) = true) (mark : Option String) :
    knockedOut? mark a = knockedOut? mark b := by
  have hid : a.identity = b.identity := Scalar.same_iff.1 h
  cases a <;> cases b <;> simp_all [Scalar.identity, knockedOut?]

namespace Merge

/-- What one incoming entry makes of what stands at a key. -/
def stepAt (mark : Option String) (k : Scalar) (held : Option Value) (e : Scalar × Value) :
    Option Value :=
  match knockedOut? mark e.1 with
  | some gone => if gone == k then none else held
  | none => if e.1 == k then some (mergedValue mark held e.2) else held

/-- Whether one of the entries removes a key. -/
def removes (mark : Option String) (source : Entries) (k : Scalar) : Bool :=
  source.any fun e => (knockedOut? mark e.1).any (· == k)

/-- The entries that are merged, which are all but the knockout keys. -/
def given (mark : Option String) (source : Entries) : Entries :=
  source.filter fun e => (knockedOut? mark e.1).isNone

variable {mark : Option String} {k : Scalar} {e : Scalar × Value} {source : Entries}

lemma given_cons_of_some {gone : Scalar} (h : knockedOut? mark e.1 = some gone) :
    given mark (e :: source) = given mark source := by
  simp [given, h]

lemma given_cons_of_none (h : knockedOut? mark e.1 = none) :
    given mark (e :: source) = e :: given mark source := by
  simp [given, h]

lemma removes_cons_of_some {gone : Scalar} (h : knockedOut? mark e.1 = some gone) :
    removes mark (e :: source) k = (gone == k || removes mark source k) := by
  simp [removes, h]

lemma removes_cons_of_none (h : knockedOut? mark e.1 = none) :
    removes mark (e :: source) k = removes mark source k := by
  simp [removes, h]

/-- A knockout key is never given. -/
lemma get?_given (mark : Option String) (source : Entries) (k : Scalar) :
    Table.get? k (given mark source) =
      if (knockedOut? mark k).isSome then none else Table.get? k source := by
  induction source with
  | nil => simp [given]
  | cons e rest ih =>
    obtain ⟨j, v⟩ := e
    by_cases hj : (j == k) = true
    · rw [← knockedOut?_congr hj] at ih ⊢
      cases hout : knockedOut? mark j with
      | none => simp [given_cons_of_none, hout, Table.get?_cons, hj]
      | some gone => simpa [given_cons_of_some, hout] using ih
    · cases hout : knockedOut? mark j with
      | none => simp [given_cons_of_none, hout, Table.get?_cons, hj, ih]
      | some gone => rw [given_cons_of_some hout, ih, Table.get?_cons, if_neg hj]

/-- A key is removed if its knockout key is there. -/
lemma removes_iff {m : String} :
    removes (some m) source k = true ↔ ∃ s, k = .text s ∧ source.has (.text (m ++ s)) = true := by
  simp only [removes, List.any_eq_true, Option.any_eq_true, knockedOut?_eq_some_iff,
    Table.has_iff]
  constructor
  · rintro ⟨e, he, gone, ⟨s, hs, rfl⟩, hk⟩
    exact ⟨s, Scalar.eq_text_of_beq (BEq.symm hk), e, he, by rw [hs]; exact BEq.rfl⟩
  · rintro ⟨s, rfl, e, he, hs⟩
    exact ⟨e, he, .text s, ⟨s, Scalar.eq_text_of_beq hs, rfl⟩, BEq.rfl⟩

/-- Entries that give no value at a key remove it or leave it. -/
lemma foldl_stepAt_of_not_given (h : Table.get? k (given mark source) = none)
    (held : Option Value) :
    source.foldl (stepAt mark k) held = if removes mark source k then none else held := by
  induction source generalizing held with
  | nil => rfl
  | cons e rest ih =>
    rw [List.foldl_cons]
    cases hout : knockedOut? mark e.1 with
    | some gone =>
      rw [given_cons_of_some hout] at h
      rw [ih h, removes_cons_of_some hout]
      by_cases hgone : (gone == k) = true
      · simp [stepAt, hout, hgone]
      · simp [stepAt, hout, hgone]
    | none =>
      rw [given_cons_of_none hout, Table.get?_cons] at h
      rw [removes_cons_of_none hout]
      by_cases hk : (e.1 == k) = true
      · rw [if_pos hk] at h
        cases h
      · rw [if_neg hk] at h
        rw [ih h]
        simp [stepAt, hout, hk]

/-- Entries that give a value at a key and do not remove it merge this value. -/
lemma foldl_stepAt_of_given (hsource : Table.Distinct source) {v : Value}
    (h : Table.get? k (given mark source) = some v) (hremoves : removes mark source k = false)
    (held : Option Value) :
    source.foldl (stepAt mark k) held = some (mergedValue mark held v) := by
  induction source generalizing held with
  | nil => cases h
  | cons e rest ih =>
    have hrest : Table.Distinct rest := (Table.distinct_cons.1 hsource).2
    rw [List.foldl_cons]
    cases hout : knockedOut? mark e.1 with
    | some gone =>
      rw [given_cons_of_some hout] at h
      rw [removes_cons_of_some hout, Bool.or_eq_false_iff] at hremoves
      rw [ih hrest h hremoves.2]
      simp [stepAt, hout, hremoves.1]
    | none =>
      rw [given_cons_of_none hout, Table.get?_cons] at h
      rw [removes_cons_of_none hout] at hremoves
      by_cases hk : (e.1 == k) = true
      · -- No later entry has this key.
        have hlater : Table.get? k (given mark rest) = none := by
          have hnone := Table.get?_eq_none_of_distinct hsource hk
          rw [Table.get?_eq_none_iff] at hnone ⊢
          exact fun a ha => hnone a (List.mem_filter.1 ha).1
        rw [if_pos hk] at h
        rw [foldl_stepAt_of_not_given hlater, hremoves]
        cases h
        simp [stepAt, hout, hk]
      · rw [if_neg hk] at h
        rw [ih hrest h hremoves]
        simp [stepAt, hout, hk]

end Merge

open Merge

variable {mark : Option String} {dest source : Entries} {k : Scalar}

/-- What a merge has at a key is what the incoming entries make of it one after the other. -/
theorem get?_mergeEntries_eq_foldl (hdest : Table.Distinct dest) (k : Scalar) :
    Table.get? k (mergeEntries mark dest source) =
      source.foldl (stepAt mark k) (Table.get? k dest) := by
  -- Each entry changes the mapping, so the induction is over all mappings that come before it.
  induction source generalizing dest with
  | nil =>
    unfold mergeEntries
    rfl
  | cons e rest ih =>
    obtain ⟨j, v⟩ := e
    unfold mergeEntries
    rw [List.foldl_cons]
    cases hout : knockedOut? mark j with
    | some gone =>
      have hstep : stepAt mark k (Table.get? k dest) (j, v) = Table.get? k (dest.erase gone) := by
        rw [Table.get?_erase hdest]
        simp [stepAt, hout]
      rw [hstep]
      exact ih (hdest.sublist (Table.erase_sublist gone dest))
    | none =>
      have hstep : stepAt mark k (Table.get? k dest) (j, v) =
          Table.get? k (dest.put j (mergedValue mark (dest.get? j) v)) := by
        rw [Table.get?_put]
        by_cases hk : (j == k) = true
        · simp [stepAt, hout, hk, Table.get?_congr hk]
        · simp [stepAt, hout, hk]
      rw [hstep]
      exact ih (Table.distinct_put hdest j _)

/-- A value that is given at a key and not removed is merged with what stands there. -/
theorem get?_mergeEntries_of_given (hdest : Table.Distinct dest)
    (hsource : Table.Distinct source) {v : Value}
    (h : Table.get? k (given mark source) = some v) (hremoves : removes mark source k = false) :
    Table.get? k (mergeEntries mark dest source) =
      some (mergedValue mark (Table.get? k dest) v) := by
  rw [get?_mergeEntries_eq_foldl hdest, foldl_stepAt_of_given hsource h hremoves]

/-- A key at which no value is given is removed if its knockout key is there, and stays as it was
if not. -/
theorem get?_mergeEntries_of_not_given (hdest : Table.Distinct dest)
    (h : Table.get? k (given mark source) = none) :
    Table.get? k (mergeEntries mark dest source) =
      if removes mark source k then none else Table.get? k dest := by
  rw [get?_mergeEntries_eq_foldl hdest, foldl_stepAt_of_not_given h]

end ProfileCompiler
