import ProfileCompiler.Proofs.Merge.Specification

/-!
# Merging the same mapping again

A second merge of the same incoming mapping changes nothing but the order of keys
(`same_deepMerge_again`), with a mark or without one.

At a key that is removed somewhere among the incoming entries, what they leave does not depend on
what stood there before, even if the key is given as well.  So there the second merge leaves what
the first one left.  At a key that is only given, an incoming mapping may have taken the place of
a scalar in the first merge and is merged with itself in the second.  For this case the induction
over the incoming value lets the old value be anything.
-/

namespace ProfileCompiler

open Merge

variable {mark : Option String} {source : Entries} {k : Scalar}

/-- Entries that remove a key leave there what does not depend on what stood there. -/
lemma foldl_stepAt_of_removes (h : removes mark source k = true) (held other : Option Value) :
    source.foldl (stepAt mark k) held = source.foldl (stepAt mark k) other := by
  induction source generalizing held other with
  | nil => cases h
  | cons e rest ih =>
    rw [List.foldl_cons, List.foldl_cons]
    cases hout : knockedOut? mark e.1 with
    | none =>
      rw [removes_cons_of_none hout] at h
      exact ih h _ _
    | some gone =>
      rw [removes_cons_of_some hout] at h
      by_cases hgone : (gone == k) = true
      · -- From here on it is forgotten what stood at the key.
        simp [stepAt, hout, hgone]
      · rw [Bool.eq_false_iff.2 hgone, Bool.false_or] at h
        exact ih h _ _

/-- A value is what an incoming value makes of it once more. -/
def Settles (mark : Option String) (v : Value) : Prop :=
  ∀ old : Option Value, (∀ u, old = some u → u.WellFormed) →
    (mergedValue mark (some (mergedValue mark old v)) v).same (mergedValue mark old v) = true

lemma sameAt_self {entries : Entries} (h : (Value.mapping entries).WellFormed) (k : Scalar) :
    Value.SameAt entries entries k := by
  have hdistinct := (Value.wellFormed_mapping.1 h).1
  exact (Value.same_mapping_iff hdistinct hdistinct).1 (Value.same_refl h) k

/-- At every key a second merge leaves what the first one left, if the values that come in do so
with what they make of anything. -/
lemma sameAt_mergeEntries_again {dest : Entries} (hdest : (Value.mapping dest).WellFormed)
    (hsource : (Value.mapping source).WellFormed) (hvalues : ∀ e ∈ source, Settles mark e.2)
    (k : Scalar) :
    Value.SameAt (mergeEntries mark (mergeEntries mark dest source) source)
      (mergeEntries mark dest source) k := by
  obtain ⟨hdistinct, hformed⟩ := Value.wellFormed_mapping.1 hsource
  have hfirst : (Value.mapping (mergeEntries mark dest source)).WellFormed :=
    Value.wellFormed_mergeEntries mark dest hdest source (Value.entriesWellFormed_iff.2 hformed)
  have hd := (Value.wellFormed_mapping.1 hdest).1
  have hf := (Value.wellFormed_mapping.1 hfirst).1
  have hkept : Table.get? k (mergeEntries mark (mergeEntries mark dest source) source) =
      Table.get? k (mergeEntries mark dest source) →
      Value.SameAt (mergeEntries mark (mergeEntries mark dest source) source)
        (mergeEntries mark dest source) k := by
    intro h
    unfold Value.SameAt
    rw [h]
    exact sameAt_self hfirst k
  cases hremoves : removes mark source k with
  | true =>
    -- What stands at a key that is removed does not depend on what was there before.
    refine hkept ?_
    rw [get?_mergeEntries_eq_foldl hf, foldl_stepAt_of_removes hremoves _ (Table.get? k dest),
      ← get?_mergeEntries_eq_foldl hd]
  | false =>
    cases hgiven : Table.get? k (given mark source) with
    | none =>
      refine hkept ?_
      rw [get?_mergeEntries_of_not_given hf hgiven, hremoves]
      rfl
    | some v =>
      have hget : Table.get? k source = some v := by
        rw [get?_given] at hgiven
        split at hgiven
        · cases hgiven
        · exact hgiven
      obtain ⟨e, he, -, rfl⟩ := Table.exists_of_get? hget
      have hold : ∀ u, Table.get? k dest = some u → u.WellFormed :=
        fun u hu => Value.wellFormed_of_get? hdest hu
      -- Both times the value that comes in is merged into what stands at its key.
      unfold Value.SameAt
      rw [get?_mergeEntries_of_given hf hdistinct hgiven hremoves,
        get?_mergeEntries_of_given hd hdistinct hgiven hremoves]
      exact .some (hvalues e he _ hold)

lemma same_mergeEntries_again {dest : Entries} (hdest : (Value.mapping dest).WellFormed)
    (hsource : (Value.mapping source).WellFormed) (hvalues : ∀ e ∈ source, Settles mark e.2) :
    (Value.mapping (mergeEntries mark (mergeEntries mark dest source) source)).same
      (.mapping (mergeEntries mark dest source)) = true := by
  have hentries := Value.entriesWellFormed_iff.2 (Value.wellFormed_mapping.1 hsource).2
  have hfirst := Value.wellFormed_mergeEntries mark _ hdest source hentries
  have hsecond := Value.wellFormed_mergeEntries mark _ hfirst source hentries
  exact (Value.same_mapping_iff (Value.wellFormed_mapping.1 hsecond).1
    (Value.wellFormed_mapping.1 hfirst).1).2 (sameAt_mergeEntries_again hdest hsource hvalues)

/-- What a value makes of anything, it makes of the result again. -/
theorem settles_of_wellFormed (mark : Option String) {v : Value} (hv : v.WellFormed) :
    Settles mark v := by
  induction v using Value.inductionOnMembers with
  | scalar s =>
    intro old _
    rw [mergedValue_of_not_mapping _ rfl, mergedValue_of_not_mapping _ rfl]
    exact Value.same_refl hv
  | list items =>
    intro old _
    rw [mergedValue_of_not_mapping _ rfl, mergedValue_of_not_mapping _ rfl]
    exact Value.same_refl hv
  | mapping source ih =>
    intro old hold
    obtain ⟨hdistinct, hformed⟩ := Value.wellFormed_mapping.1 hv
    rw [mergedValue_mapping_of_distinct mark _ hdistinct,
      mergedValue_mapping_of_distinct mark old hdistinct]
    exact same_mergeEntries_again (wellFormed_oldEntries hold) hv
      fun e he => ih e he (hformed e he)

/-- Merging the same mapping once more gives the same mapping. -/
theorem same_deepMerge_again (mark : Option String) {dest source : Entries}
    (hdest : (Value.mapping dest).WellFormed) (hsource : (Value.mapping source).WellFormed) :
    (deepMerge mark (deepMerge mark (.mapping dest) (.mapping source)) (.mapping source)).same
      (deepMerge mark (.mapping dest) (.mapping source)) = true := by
  have hvalues : ∀ e ∈ source, Settles (activeMark mark) e.2 := fun e he =>
    settles_of_wellFormed _ ((Value.wellFormed_mapping.1 hsource).2 e he)
  exact same_mergeEntries_again hdest hsource hvalues

/-- Entries with a key behind and another before its knockout key, and with a mapping that has
knockout keys and takes the place of a scalar. -/
def contending : Entries :=
  [(.text "--a", .null), (.text "a", .int 1), (.text "b", .int 2), (.text "--b", .null),
    (.text "c", .ofTexts [("--d", .null), ("e", .int 3)])]

/-- The first merge puts `a` again, takes `b` away and replaces `c`, and so does the second. -/
theorem same_deepMerge_again_contending :
    (Value.ofTexts [("a", .int 0), ("b", .int 0), ("c", .int 0)]).WellFormed ∧
      (Value.mapping contending).WellFormed ∧
      (deepMerge "--" (deepMerge "--" (.ofTexts [("a", .int 0), ("b", .int 0), ("c", .int 0)])
          (.mapping contending)) (.mapping contending)).same
        (deepMerge "--" (.ofTexts [("a", .int 0), ("b", .int 0), ("c", .int 0)])
          (.mapping contending)) = true := by
  have hdest : (Value.ofTexts [("a", .int 0), ("b", .int 0), ("c", .int 0)]).WellFormed := by decide
  have hsource : (Value.mapping contending).WellFormed := by decide
  exact ⟨hdest, hsource, same_deepMerge_again "--" hdest hsource⟩

end ProfileCompiler
