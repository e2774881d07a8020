import Mathlib.Data.List.Perm.Subperm
import Mathlib.Data.Option.Basic
import ProfileCompiler.Proofs.Table.Permutation
import ProfileCompiler.Proofs.WellFormed

/-!
# Mappings that are the same

Two mappings are the same if they have equally many keys and every key of the one is in the
other, with the same value.  For mappings without repeated keys this is to say that they read
the same at every key (`Value.same_mapping_iff`), so nothing hangs on the order of the entries.

`Value.inductionOnMembers` is induction over values: what holds of the items of a list, or of the
values of a mapping, may be used for the list or the mapping.
-/

namespace ProfileCompiler

namespace Value

/-! ## Induction -/

/-- Induction over a value, with the members of lists and mappings. -/
@[elab_as_elim]
theorem inductionOnMembers {motive : Value → Prop} (v : Value)
    (scalar : ∀ s, motive (.scalar s))
    (list : ∀ items, (∀ v ∈ items, motive v) → motive (.list items))
    (mapping : ∀ entries : Entries, (∀ e ∈ entries, motive e.2) → motive (.mapping entries)) :
    motive v := by
  cases v with
  | scalar s => exact scalar s
  | list items => exact list items fun v hv =>
      have := List.sizeOf_lt_of_mem hv
      inductionOnMembers v scalar list mapping
  | mapping entries => exact mapping entries fun e he =>
      have := List.sizeOf_lt_of_mem he
      inductionOnMembers e.2 scalar list mapping
termination_by sizeOf v
decreasing_by
  · simp only [Value.list.sizeOf_spec]
    omega
  · obtain ⟨k, w⟩ := e
    simp only [Value.mapping.sizeOf_spec, Prod.mk.sizeOf_spec] at *
    omega

/-! ## Mappings read at every key -/

/-- What two mappings have at a key: the same value, or both nothing. -/
def SameAt (xs ys : Entries) (k : Scalar) : Prop :=
  Option.Rel (fun v w => v.same w = true) (xs.get? k) (ys.get? k)

lemma SameAt.eq_none_iff {xs ys : Entries} {k : Scalar} (h : SameAt xs ys k) :
    xs.get? k = none ↔ ys.get? k = none := by
  unfold SameAt at h
  generalize xs.get? k = v at h
  generalize ys.get? k = w at h
  cases h <;> simp

/-- What the keys of entries are compared by. -/
def identities (entries : Entries) : List Identity := entries.map fun e => e.1.identity

variable {xs ys : Entries}

lemma mem_identities {k : Scalar} : k.identity ∈ identities xs ↔ xs.get? k ≠ none := by
  rw [ne_eq, Table.get?_eq_none_iff]
  simp only [identities, List.mem_map, ← Scalar.same_iff, ← Scalar.beq_eq_same, not_forall,
    Bool.not_eq_false, exists_prop]

lemma nodup_identities (h : Table.Distinct xs) : (identities xs).Nodup := by
  refine List.pairwise_map.2 (h.imp fun {a b} hab hid => ?_)
  exact Bool.false_ne_true (hab.symm.trans (Scalar.same_iff.2 hid))

lemma sameEntries_iff :
    sameEntries xs ys = true ↔ ∀ e ∈ xs, ∃ w, ys.get? e.1 = some w ∧ e.2.same w = true := by
  induction xs with
  | nil => simp [sameEntries]
  | cons e xs ih =>
    obtain ⟨k, v⟩ := e
    rw [sameEntries, Bool.and_eq_true, ih, List.forall_mem_cons]
    cases hget : Table.get? k ys <;> simp

lemma sameItems_iff {vs ws : List Value} :
    sameItems vs ws = true ↔ List.Forall₂ (fun v w => v.same w = true) vs ws := by
  induction vs generalizing ws with
  | nil => cases ws <;> simp [sameItems]
  | cons v vs ih => cases ws <;> simp [sameItems, ih]

/-- Values that are the same as a third one are the same, also where a mapping has a key twice. -/
theorem same_trans {u v w : Value} (huv : u.same v = true) (hvw : v.same w = true) :
    u.same w = true := by
  induction u using inductionOnMembers generalizing v w with
  | scalar a =>
    cases v <;> cases w <;> simp only [same, Bool.false_eq_true] at huv hvw
    rw [same]
    exact BEq.trans huv hvw
  | list us ih =>
    cases v <;> cases w <;> simp only [same, Bool.false_eq_true, sameItems_iff] at huv hvw
    rename_i vs ws
    rw [same, sameItems_iff]
    induction huv generalizing ws with
    | nil =>
      cases hvw
      exact .nil
    | cons hfirst _ ihrest =>
      obtain ⟨ihfirst, ihmembers⟩ := List.forall_mem_cons.1 ih
      cases hvw with
      | cons hnext hrest => exact .cons (ihfirst hfirst hnext) (ihrest ihmembers _ hrest)
  | mapping us ih =>
    cases v <;> cases w <;> simp only [same, Bool.false_eq_true, Bool.and_eq_true, beq_iff_eq,
      sameEntries_iff] at huv hvw
    rw [same, Bool.and_eq_true, beq_iff_eq, sameEntries_iff]
    -- An entry of the first has its like in the second, whose key may be spelled otherwise.
    refine ⟨huv.1.trans hvw.1, fun e he => ?_⟩
    obtain ⟨v, hv, hsame⟩ := huv.2 e he
    obtain ⟨e', he', hkey, rfl⟩ := Table.exists_of_get? hv
    obtain ⟨w, hw, hnext⟩ := hvw.2 e' he'
    exact ⟨w, by rw [← Table.get?_congr hkey, hw], ih e he hsame hnext⟩

/-- Mappings without repeated keys are the same if they read the same at every key. -/
theorem same_mapping_iff (hx : Table.Distinct xs) (hy : Table.Distinct ys) :
    (mapping xs).same (mapping ys) = true ↔ ∀ k, SameAt xs ys k := by
  rw [same, Bool.and_eq_true, beq_iff_eq, sameEntries_iff]
  constructor
  · rintro ⟨hlength, hentries⟩ k
    have hsubset : identities xs ⊆ identities ys := by
      intro i hi
      obtain ⟨e, he, rfl⟩ := List.mem_map.1 hi
      obtain ⟨w, hw, -⟩ := hentries e he
      exact mem_identities.2 (by simp [hw])
    -- Equally many different keys: the keys of the second are those of the first.
    have hsubperm : (identities xs).Subperm (identities ys) :=
      List.Nodup.subperm (nodup_identities hx) hsubset
    have hperm : (identities xs).Perm (identities ys) :=
      hsubperm.perm_of_length_le (by simp [identities, hlength])
    unfold SameAt
    cases hxk : xs.get? k with
    | none =>
      have hyk : ys.get? k = none := by
        by_contra hne
        exact mem_identities.1 (hperm.mem_iff.2 (mem_identities.2 hne)) hxk
      rw [hyk]
      exact Option.Rel.none
    | some v =>
      obtain ⟨e, he, hek, rfl⟩ := Table.exists_of_get? hxk
      obtain ⟨w, hw, hsame⟩ := hentries e he
      rw [← Table.get?_congr hek, hw]
      exact Option.Rel.some hsame
  · intro hsame
    -- The same keys are there, so there are equally many entries.
    have hmem : ∀ k : Scalar, k.identity ∈ identities xs ↔ k.identity ∈ identities ys := by
      intro k
      rw [mem_identities, mem_identities, ne_eq, ne_eq, (hsame k).eq_none_iff]
    have hperm : (identities xs).Perm (identities ys) := by
      refine (List.perm_ext_iff_of_nodup (nodup_identities hx) (nodup_identities hy)).2 fun i => ?_
      constructor
      · intro hi
        obtain ⟨e, -, rfl⟩ := List.mem_map.1 hi
        exact (hmem e.1).1 hi
      · intro hi
        obtain ⟨e, -, rfl⟩ := List.mem_map.1 hi
        exact (hmem e.1).2 hi
    refine ⟨by simpa [identities] using hperm.length_eq, fun e he => ?_⟩
    have hk := hsame e.1
    unfold SameAt at hk
    rw [Table.get?_of_mem hx he] at hk
    generalize ys.get? e.1 = w at hk
    cases hk with
    | some hsame => exact ⟨_, rfl, hsame⟩

/-- A value that is the same as another is so the other way round. -/
theorem same_symm {v w : Value} (hv : v.WellFormed) (hw : w.WellFormed)
    (h : v.same w = true) : w.same v = true := by
  induction v using inductionOnMembers generalizing w with
  | scalar a =>
    cases w <;> simp only [same, Bool.false_eq_true] at h
    rw [same]
    exact BEq.symm h
  | list vs ih =>
    cases w <;> simp only [same, Bool.false_eq_true, sameItems_iff] at h
    rename_i ws
    rw [wellFormed_list] at hv hw
    rw [same, sameItems_iff]
    induction h with
    | nil => exact .nil
    | cons hfirst _ ihrest =>
      obtain ⟨ihfirst, ihmembers⟩ := List.forall_mem_cons.1 ih
      obtain ⟨hvfirst, hvrest⟩ := List.forall_mem_cons.1 hv
      obtain ⟨hwfirst, hwrest⟩ := List.forall_mem_cons.1 hw
      exact .cons (ihfirst hvfirst hwfirst hfirst) (ihrest ihmembers hvrest hwrest)
  | mapping vs ih =>
    cases w <;> simp only [same, Bool.false_eq_true] at h
    rename_i ws
    obtain ⟨hdistinct, hvalues⟩ := wellFormed_mapping.1 hv
    have hdistinct' := (wellFormed_mapping.1 hw).1
    -- Mappings are compared entry by entry of the first; read key by key this has no direction.
    have hread : ∀ k, SameAt vs ws k :=
      (same_mapping_iff hdistinct hdistinct').1 (by rw [same]; exact h)
    refine (same_mapping_iff hdistinct' hdistinct).2 fun k => ?_
    have hk := hread k
    unfold SameAt at hk ⊢
    cases hvk : vs.get? k with
    | none =>
      rw [(hread k).eq_none_iff.1 hvk]
      exact .none
    | some v =>
      obtain ⟨e, he, -, rfl⟩ := Table.exists_of_get? hvk
      rw [hvk] at hk
      cases hwk : Table.get? k ws with
      | none =>
        rw [hwk] at hk
        cases hk
      | some w =>
        rw [hwk] at hk
        cases hk with
        | some hsame => exact .some (ih e he (hvalues e he) (wellFormed_of_get? hw hwk) hsame)

end Value

end ProfileCompiler
