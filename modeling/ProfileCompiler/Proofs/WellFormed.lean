import ProfileCompiler.Merge
import ProfileCompiler.Proofs.Table

/-!
# Well-formed values

A decoded value has no mapping with a key twice (`Value.WellFormed`).  Whether a value is well
formed can be decided, and what stands in a well-formed mapping is well formed.  Merging keeps
values well formed (`wellFormed_deepMerge`).
-/

namespace ProfileCompiler

namespace Value

lemma entriesWellFormed_iff {entries : List (Scalar × Value)} :
    EntriesWellFormed entries ↔ ∀ e ∈ entries, e.2.WellFormed := by
  induction entries with
  | nil => simp [EntriesWellFormed]
  | cons e rest ih =>
    obtain ⟨k, v⟩ := e
    rw [EntriesWellFormed, ih, List.forall_mem_cons]

/-- A mapping is well formed if its keys are different and its values are well formed. -/
lemma wellFormed_mapping {entries : Entries} :
    (mapping entries).WellFormed ↔
      Table.Distinct entries ∧ ∀ e ∈ entries, e.2.WellFormed := by
  rw [WellFormed, entriesWellFormed_iff]

/-- A list is well formed if its items are. -/
lemma wellFormed_list {items : List Value} :
    (list items).WellFormed ↔ ∀ v ∈ items, v.WellFormed := by
  rw [WellFormed]
  induction items with
  | nil => simp [AllWellFormed]
  | cons v rest ih => rw [AllWellFormed, ih, List.forall_mem_cons]

/-- What stands in a well-formed mapping is well formed. -/
lemma wellFormed_of_get? {entries : Entries} (h : (mapping entries).WellFormed) {k : Scalar}
    {v : Value} (hget : entries.get? k = some v) : v.WellFormed := by
  obtain ⟨e, he, -, rfl⟩ := Table.exists_of_get? hget
  exact (wellFormed_mapping.1 h).2 e he

/-! ## Deciding -/

instance (entries : Entries) : Decidable (Table.Distinct entries) :=
  inferInstanceAs (Decidable (entries.Pairwise _))

mutual

/-- Whether a value is well formed. -/
def decideWellFormed : (v : Value) → Decidable v.WellFormed
  | .scalar _ => .isTrue (by rw [WellFormed]; trivial)
  | .list items =>
    have := decideAllWellFormed items
    decidable_of_iff (AllWellFormed items) (by rw [WellFormed])
  | .mapping entries =>
    have := decideEntriesWellFormed entries
    decidable_of_iff (Table.Distinct entries ∧ EntriesWellFormed entries) (by rw [WellFormed])

/-- Whether all items are well formed. -/
def decideAllWellFormed : (items : List Value) → Decidable (AllWellFormed items)
  | [] => .isTrue (by rw [AllWellFormed]; trivial)
  | item :: rest =>
    have := decideWellFormed item
    have := decideAllWellFormed rest
    decidable_of_iff (item.WellFormed ∧ AllWellFormed rest) (by rw [AllWellFormed])

/-- Whether all entries have well-formed values. -/
def decideEntriesWellFormed :
    (entries : List (Scalar × Value)) → Decidable (EntriesWellFormed entries)
  | [] => .isTrue (by rw [EntriesWellFormed]; trivial)
  | (_, v) :: rest =>
    have := decideWellFormed v
    have := decideEntriesWellFormed rest
    decidable_of_iff (v.WellFormed ∧ EntriesWellFormed rest) (by rw [EntriesWellFormed])

end

instance : DecidablePred WellFormed := decideWellFormed

/-! ## Merging -/

lemma wellFormed_put {entries : Entries} (h : (mapping entries).WellFormed) (k : Scalar)
    {v : Value} (hv : v.WellFormed) : (mapping (entries.put k v)).WellFormed := by
  obtain ⟨hdistinct, hvalues⟩ := wellFormed_mapping.1 h
  refine wellFormed_mapping.2 ⟨Table.distinct_put hdistinct k v, fun e he => ?_⟩
  rcases Table.mem_put he with hmem | ⟨hvalue, -⟩
  · exact hvalues e hmem
  · rw [hvalue]
    exact hv

lemma wellFormed_erase {entries : Entries} (h : (mapping entries).WellFormed) (k : Scalar) :
    (mapping (entries.erase k)).WellFormed := by
  obtain ⟨hdistinct, hvalues⟩ := wellFormed_mapping.1 h
  have hsublist := Table.erase_sublist k entries
  exact wellFormed_mapping.2 ⟨hdistinct.sublist hsublist, fun e he =>
    hvalues e (hsublist.subset he)⟩

lemma wellFormed_empty : (mapping []).WellFormed := by decide

mutual

lemma wellFormed_mergedValue (mark : Option String) (old : Option Value)
    (hold : ∀ u, old = some u → u.WellFormed) :
    ∀ v, v.WellFormed → (mergedValue mark old v).WellFormed
  | .scalar s, h => by
    unfold mergedValue
    exact h
  | .list items, h => by
    unfold mergedValue
    exact h
  | .mapping incoming, h => by
    have hincoming : EntriesWellFormed incoming :=
      entriesWellFormed_iff.2 (wellFormed_mapping.1 h).2
    unfold mergedValue
    split
    · rename_i oldEntries
      exact wellFormed_mergeEntries mark oldEntries (hold _ rfl) incoming hincoming
    · split
      · exact wellFormed_mergeEntries mark [] wellFormed_empty incoming hincoming
      · exact h

lemma wellFormed_mergeEntries (mark : Option String) (dest : Entries)
    (hdest : (mapping dest).WellFormed) :
    ∀ source, EntriesWellFormed source → (mapping (mergeEntries mark dest source)).WellFormed
  | [], _ => by
    unfold mergeEntries
    exact hdest
  | (k, v) :: rest, h => by
    obtain ⟨hv, hrest⟩ := h
    unfold mergeEntries
    cases knockedOut? mark k with
    | some gone => exact wellFormed_mergeEntries mark _ (wellFormed_erase hdest gone) rest hrest
    | none =>
      have hmerged : (mergedValue mark (dest.get? k) v).WellFormed :=
        wellFormed_mergedValue mark (dest.get? k) (fun u hu => wellFormed_of_get? hdest hu) v hv
      exact wellFormed_mergeEntries mark _ (wellFormed_put hdest k hmerged) rest hrest

end

/-- A merge of well-formed values is well formed. -/
theorem wellFormed_deepMerge (mark : Option String) {old body : Value} (hold : old.WellFormed)
    (hbody : body.WellFormed) : (deepMerge mark old body).WellFormed := by
  unfold deepMerge
  split
  · rename_i source
    have hsource : EntriesWellFormed source :=
      entriesWellFormed_iff.2 (wellFormed_mapping.1 hbody).2
    exact wellFormed_mergeEntries _ _ hold _ hsource
  · exact hbody

end Value

end ProfileCompiler
