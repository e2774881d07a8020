import ProfileCompiler.Merge
import ProfileCompiler.Proofs.WellFormed

/-!
# Merging uses up knockout keys

A value is free of knockout keys if no key of a mapping in it starts with the knockout mark, at
any depth that is reached through mappings (`Value.KnockoutFree`).  What a merge with the mark
puts into a mapping is free of them, whatever comes in (`knockoutFree_mergeEntries`).  Only where
the existing value is no mapping does the incoming one take its place as it stands, with the
knockout keys that it has (`knockoutFree_deepMerge_iff`).
-/

namespace ProfileCompiler

/-- A key that removes another key. -/
def IsKnockout (k : Scalar) : Prop := (knockedOut? (some knockoutMark) k).isSome = true

instance : DecidablePred IsKnockout := fun _ => inferInstanceAs (Decidable (_ = true))

namespace Value

/-- No key path of the value has a knockout key. -/
def KnockoutFree (v : Value) : Prop := ∀ path ∈ v.paths, ∀ k ∈ path, ¬ IsKnockout k

instance : DecidablePred KnockoutFree := fun v =>
  inferInstanceAs (Decidable (∀ path ∈ v.paths, ∀ k ∈ path, ¬ IsKnockout k))

/-- Entries of which no key is a knockout key, and whose values are free of them. -/
def EntriesFree (entries : Entries) : Prop :=
  ∀ e ∈ entries, ¬ IsKnockout e.1 ∧ e.2.KnockoutFree

lemma knockoutFree_mapping {entries : Entries} :
    (mapping entries).KnockoutFree ↔ EntriesFree entries := by
  unfold KnockoutFree EntriesFree
  rw [paths]
  induction entries with
  | nil => simp [entryPaths]
  | cons e rest ih =>
    obtain ⟨k, v⟩ := e
    rw [List.forall_mem_cons, ← ih, entryPaths, List.forall_mem_cons, List.forall_mem_append,
      List.forall_mem_map]
    simp only [List.forall_mem_singleton, List.forall_mem_cons]
    constructor
    · rintro ⟨hk, hv, hrest⟩
      exact ⟨⟨hk, fun path hpath => (hv path hpath).2⟩, hrest⟩
    · rintro ⟨⟨hk, hv⟩, hrest⟩
      exact ⟨hk, fun path hpath => ⟨hk, hv path hpath⟩, hrest⟩

/-- Lists and scalars have no key paths. -/
lemma knockoutFree_of_not_mapping {v : Value} (h : v.isMapping = false) : v.KnockoutFree := by
  cases v with
  | scalar s => exact List.forall_mem_nil _
  | list items => exact List.forall_mem_nil _
  | mapping entries => cases h

end Value

open Value

lemma entriesFree_put {entries : Entries} (h : EntriesFree entries) {k : Scalar} {v : Value}
    (hk : ¬ IsKnockout k) (hv : v.KnockoutFree) : EntriesFree (entries.put k v) := by
  intro e he
  rcases Table.mem_put he with hmem | ⟨hvalue, hkey⟩
  · exact h e hmem
  · rw [hvalue]
    rcases hkey with hkey | ⟨a, ha, hkey⟩
    · exact ⟨hkey ▸ hk, hv⟩
    · exact ⟨hkey ▸ (h a ha).1, hv⟩

lemma entriesFree_erase {entries : Entries} (h : EntriesFree entries) (k : Scalar) :
    EntriesFree (entries.erase k) :=
  fun e he => h e ((Table.erase_sublist k entries).subset he)

mutual

/-- What an incoming value leaves under a key is free if what was there is free: an incoming
mapping is merged, be it with nothing. -/
lemma knockoutFree_mergedValue (old : Option Value)
    (hold : ∀ entries, old = some (.mapping entries) → EntriesFree entries) :
    ∀ v, (mergedValue (some knockoutMark) old v).KnockoutFree
  | .scalar s => by
    unfold mergedValue
    exact knockoutFree_of_not_mapping rfl
  | .list items => by
    unfold mergedValue
    exact knockoutFree_of_not_mapping rfl
  | .mapping incoming => by
    unfold mergedValue
    split
    · rename_i oldEntries
      exact knockoutFree_mapping.2 (entriesFree_mergeEntries oldEntries (hold _ rfl) incoming)
    · exact knockoutFree_mapping.2 (entriesFree_mergeEntries [] (List.forall_mem_nil _) incoming)

/-- Free entries stay free whatever is merged into them. -/
lemma entriesFree_mergeEntries (dest : Entries) (hdest : EntriesFree dest) :
    ∀ source, EntriesFree (mergeEntries (some knockoutMark) dest source)
  | [] => by
    unfold mergeEntries
    exact hdest
  | (k, v) :: rest => by
    unfold mergeEntries
    cases hk : knockedOut? (some knockoutMark) k with
    | some gone => exact entriesFree_mergeEntries _ (entriesFree_erase hdest gone) rest
    | none =>
      have hfree : ¬ IsKnockout k := by simp [IsKnockout, hk]
      have hvalue : (mergedValue (some knockoutMark) (dest.get? k) v).KnockoutFree := by
        refine knockoutFree_mergedValue (dest.get? k) ?_ v
        intro entries hget
        obtain ⟨e, he, -, heq⟩ := Table.exists_of_get? hget
        rw [← knockoutFree_mapping, ← heq]
        exact (hdest e he).2
      exact entriesFree_mergeEntries _ (entriesFree_put hdest hfree hvalue) rest

end

/-- A merge with the knockout mark into a value free of knockout keys leaves one in exactly if
it puts a mapping with one into the place of a value that is no mapping. -/
theorem knockoutFree_deepMerge_iff {old body : Value} (hold : old.KnockoutFree) :
    (deepMerge (some knockoutMark) old body).KnockoutFree ↔
      (old.isMapping = false → body.KnockoutFree) := by
  have hmark : activeMark (some knockoutMark) = some knockoutMark := by decide
  cases old with
  | scalar s => simp [deepMerge, isMapping]
  | list items => simp [deepMerge, isMapping]
  | mapping dest =>
    have hvacuous : (mapping dest).isMapping = false → body.KnockoutFree := by
      intro h
      cases h
    refine iff_of_true ?_ hvacuous
    cases body with
    | scalar s => exact knockoutFree_of_not_mapping rfl
    | list items => exact knockoutFree_of_not_mapping rfl
    | mapping source =>
      rw [deepMerge, hmark, knockoutFree_mapping]
      exact entriesFree_mergeEntries dest (knockoutFree_mapping.1 hold) source

end ProfileCompiler
