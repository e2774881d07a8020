import ProfileCompiler.Merge
import ProfileCompiler.Proofs.WellFormed

/-!
# Reading merged values along key paths

A merge without a knockout mark takes in entry by entry (`get?_mergeEntries`).  So what is read
in the merged value at the end of a key path is what the incoming value has there, and what the
old value has there if the incoming one has nothing (`Value.at?_mergedValue`).  This holds where
the incoming value has no mapping at the end of the path, and where the path is clear in both, which
is to say that neither of them has something other than a mapping on the way.
-/

namespace ProfileCompiler

/-! ## Entry by entry -/

lemma mergedValue_of_not_mapping {mark : Option String} (old : Option Value) {v : Value}
    (h : v.isMapping = false) : mergedValue mark old v = v := by
  unfold mergedValue
  cases v with
  | scalar s => rfl
  | list items => rfl
  | mapping entries => cases h

lemma mergedValue_none (v : Value) : mergedValue none none v = v := by
  unfold mergedValue
  cases v <;> rfl

lemma mergedValue_mapping (dest source : Entries) :
    mergedValue none (some (.mapping dest)) (.mapping source) =
      .mapping (mergeEntries none dest source) := by
  rw [mergedValue]

lemma isMapping_mergedValue (mark : Option String) (old : Option Value) (v : Value) :
    (mergedValue mark old v).isMapping = v.isMapping := by
  cases v with
  | scalar s => rw [mergedValue_of_not_mapping old rfl]
  | list items => rw [mergedValue_of_not_mapping old rfl]
  | mapping entries =>
    unfold mergedValue
    split
    · rfl
    · split <;> rfl

/-- Without a mark the first incoming entry is merged with the old one at its key. -/
lemma mergeEntries_cons (dest : Entries) (k : Scalar) (v : Value) (rest : Entries) :
    mergeEntries none dest ((k, v) :: rest) =
      mergeEntries none (dest.put k (mergedValue none (dest.get? k) v)) rest := by
  rw [mergeEntries]
  rfl

/-- Without a mark an incoming entry is merged with the old one, and all other entries stay. -/
lemma get?_mergeEntries {source : Entries} (hsource : Table.Distinct source) (dest : Entries)
    (k : Scalar) :
    Table.get? k (mergeEntries none dest source) =
      ((Table.get? k source).map (mergedValue none (Table.get? k dest))).or
        (Table.get? k dest) := by
  induction source generalizing dest with
  | nil =>
    unfold mergeEntries
    rfl
  | cons e rest ih =>
    obtain ⟨j, v⟩ := e
    rw [mergeEntries_cons, ih (Table.distinct_cons.1 hsource).2, Table.get?_cons]
    by_cases hk : (j == k) = true
    · -- No later entry has this key.
      rw [Table.get?_eq_none_of_distinct hsource hk, if_pos hk, Table.get?_put, if_pos hk,
        Table.get?_congr hk dest]
      rfl
    · rw [if_neg hk, Table.get?_put, if_neg hk]

/-- Entries under different keys are put one behind the other. -/
lemma mergeEntries_of_distinct {dest source : Entries} (h : Table.Distinct (dest ++ source)) :
    mergeEntries none dest source = dest ++ source := by
  induction source generalizing dest with
  | nil =>
    unfold mergeEntries
    rw [List.append_nil]
  | cons e rest ih =>
    obtain ⟨k, v⟩ := e
    have hnew : ∀ a ∈ dest, (a.1 == k) = false := fun a ha =>
      (List.pairwise_append.1 h).2.2 a ha (k, v) List.mem_cons_self
    have hnone : dest.get? k = none := (Table.get?_eq_none_iff k dest).2 hnew
    have hmore : Table.Distinct ((dest ++ [(k, v)]) ++ rest) := by
      rw [List.append_assoc]
      exact h
    rw [mergeEntries_cons, hnone, mergedValue_none, Table.put_of_get?_eq_none hnone v, ih hmore,
      List.append_assoc]
    rfl

namespace Value

/-! ## Key paths -/

/-- The value that a key path leads to. -/
def at? : List Scalar → Value → Option Value
  | [], v => some v
  | k :: path, .mapping entries => (Table.get? k entries).bind (at? path)
  | _ :: _, _ => none

lemma at?_append (path rest : List Scalar) (v : Value) :
    v.at? (path ++ rest) = (v.at? path).bind (at? rest) := by
  induction path generalizing v with
  | nil => rfl
  | cons k path ih =>
    cases v with
    | scalar s => rfl
    | list items => rfl
    | mapping entries =>
      rw [List.cons_append, at?, at?, Option.bind_assoc]
      exact congrArg _ (funext ih)

/-- What the value has on the way along a path, before its end, are mappings. -/
def Clear (path : List Scalar) (v : Value) : Prop :=
  ∀ q, q <+: path → q ≠ path → ∀ w, v.at? q = some w → w.isMapping = true

variable {path : List Scalar} {k : Scalar} {v : Value} {entries : Entries}

lemma clear_nil (v : Value) : v.Clear [] := by
  intro q hq hne
  exact absurd (List.prefix_nil.1 hq) hne

lemma entries_of_clear (h : v.Clear (k :: path)) : ∃ entries, v = .mapping entries := by
  have hmapping : v.isMapping = true := h [] List.nil_prefix (by simp) v rfl
  cases v with
  | mapping entries => exact ⟨entries, rfl⟩
  | scalar s => cases hmapping
  | list items => cases hmapping

/-- A path is clear in a mapping if its rest is clear in what stands at its first key. -/
lemma clear_mapping :
    (mapping entries).Clear (k :: path) ↔ ∀ w, entries.get? k = some w → w.Clear path := by
  constructor
  · intro h w hw q hq hne x hx
    refine h (k :: q) (List.cons_prefix_cons.2 ⟨rfl, hq⟩) (by simpa using hne) x ?_
    rw [at?, hw]
    exact hx
  · intro h q hq hne x hx
    cases q with
    | nil =>
      cases hx
      rfl
    | cons j q =>
      obtain ⟨rfl, hrest⟩ := List.cons_prefix_cons.1 hq
      rw [at?] at hx
      obtain ⟨w, hw, hx⟩ := Option.bind_eq_some_iff.1 hx
      exact h w hw q hrest (by simpa using hne) x hx

/-! ## Merged values -/

/-- A path that is clear in the old and in the incoming value is clear in the merged one. -/
lemma Clear.mergedValue {old : Option Value} (hformed : v.WellFormed) (hv : v.Clear path)
    (hold : ∀ u, old = some u → u.Clear path) : (mergedValue none old v).Clear path := by
  induction path generalizing old v with
  | nil => exact clear_nil _
  | cons k path ih =>
    obtain ⟨source, rfl⟩ := entries_of_clear hv
    cases old with
    | none =>
      rw [mergedValue_none]
      exact hv
    | some u =>
      have hu : u.Clear (k :: path) := hold u rfl
      obtain ⟨dest, rfl⟩ := entries_of_clear hu
      rw [clear_mapping] at hv hu
      rw [mergedValue_mapping, clear_mapping]
      intro w hw
      rw [get?_mergeEntries (wellFormed_mapping.1 hformed).1] at hw
      cases hget : Table.get? k source with
      | none =>
        rw [hget] at hw
        exact hu w hw
      | some x =>
        rw [hget] at hw
        cases hw
        exact ih (wellFormed_of_get? hformed hget) (hv x hget) hu

/-- At the end of a path that is clear in both values the merged value has what the incoming value
has there, or else what the old one has. -/
theorem at?_mergedValue {old : Option Value} (hformed : v.WellFormed) (hv : v.Clear path)
    (hleaf : ∀ w, v.at? path = some w → w.isMapping = false)
    (hold : ∀ u, old = some u → u.Clear path) :
    (mergedValue none old v).at? path = (v.at? path).or (old.bind (at? path)) := by
  induction path generalizing old v with
  | nil =>
    rw [mergedValue_of_not_mapping old (hleaf v rfl)]
    rfl
  | cons k path ih =>
    obtain ⟨source, rfl⟩ := entries_of_clear hv
    cases old with
    | none =>
      rw [mergedValue_none]
      exact Option.or_none.symm
    | some u =>
      have hu : u.Clear (k :: path) := hold u rfl
      obtain ⟨dest, rfl⟩ := entries_of_clear hu
      rw [clear_mapping] at hv hu
      rw [mergedValue_mapping]
      simp only [at?, Option.bind_some]
      rw [get?_mergeEntries (wellFormed_mapping.1 hformed).1]
      simp only [at?] at hleaf
      cases hget : Table.get? k source with
      | none => rfl
      | some x =>
        rw [hget] at hleaf
        exact ih (wellFormed_of_get? hformed hget) (hv x hget) hleaf hu

end Value

end ProfileCompiler
