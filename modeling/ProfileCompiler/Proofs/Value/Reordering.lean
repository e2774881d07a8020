import ProfileCompiler.Proofs.Value.Sameness

/-!
# Values with their keys in another order

`Value.Reordered v w` says that `w` is `v` with the entries of its mappings in another order, at
any depth, mappings within lists included.  A reordered value is the same value
(`Value.Reordered.same`).
-/

namespace ProfileCompiler

namespace Value

mutual

/-- The second value is the first one with the entries of mappings in another order. -/
inductive Reordered : Value → Value → Prop
  | scalar (s : Scalar) : Reordered (.scalar s) (.scalar s)
  | list {xs ys : List Value} : ReorderedItems xs ys → Reordered (.list xs) (.list ys)
  | mapping {xs zs ys : List (Scalar × Value)} :
    xs.Perm zs → ReorderedEntries zs ys → Reordered (.mapping xs) (.mapping ys)

/-- The items are reordered one by one. -/
inductive ReorderedItems : List Value → List Value → Prop
  | nil : ReorderedItems [] []
  | cons {x y : Value} {xs ys : List Value} :
    Reordered x y → ReorderedItems xs ys → ReorderedItems (x :: xs) (y :: ys)

/-- The values of entries are reordered one by one, under the same keys. -/
inductive ReorderedEntries : List (Scalar × Value) → List (Scalar × Value) → Prop
  | nil : ReorderedEntries [] []
  | cons (k : Scalar) {v w : Value} {xs ys : List (Scalar × Value)} :
    Reordered v w → ReorderedEntries xs ys → ReorderedEntries ((k, v) :: xs) ((k, w) :: ys)

end

lemma ReorderedItems.refl {xs : List Value} (h : ∀ x ∈ xs, Reordered x x) :
    ReorderedItems xs xs := by
  induction xs with
  | nil => exact .nil
  | cons x xs ih =>
    obtain ⟨hx, hxs⟩ := List.forall_mem_cons.1 h
    exact .cons hx (ih hxs)

lemma ReorderedEntries.refl {xs : Entries} (h : ∀ e ∈ xs, Reordered e.2 e.2) :
    ReorderedEntries xs xs := by
  induction xs with
  | nil => exact .nil
  | cons e xs ih =>
    obtain ⟨he, hxs⟩ := List.forall_mem_cons.1 h
    exact .cons e.1 he (ih hxs)

lemma ReorderedEntries.append_singleton {xs ys : Entries} (h : ReorderedEntries xs ys)
    (k : Scalar) {v w : Value} (hvw : Reordered v w) :
    ReorderedEntries (xs ++ [(k, v)]) (ys ++ [(k, w)]) := by
  induction xs generalizing ys with
  | nil =>
    cases h
    exact .cons k hvw .nil
  | cons e xs ih =>
    cases h with
    | cons j hj hrest => exact .cons j hj (ih hrest)

lemma Reordered.refl (v : Value) : Reordered v v := by
  induction v using inductionOnMembers with
  | scalar s => exact .scalar s
  | list items ih => exact .list (.refl ih)
  | mapping entries ih => exact .mapping (.refl _) (.refl ih)

/-- What is read at a key is reordered. -/
lemma ReorderedEntries.get? {xs ys : Entries} (h : ReorderedEntries xs ys) (k : Scalar) :
    Option.Rel Reordered (xs.get? k) (ys.get? k) := by
  induction xs generalizing ys with
  | nil =>
    cases h
    exact .none
  | cons e xs ih =>
    cases h with
    | cons j hvw hrest =>
      rw [Table.get?_cons, Table.get?_cons]
      split
      · exact .some hvw
      · exact ih hrest

lemma ReorderedEntries.distinct {xs ys : Entries} (h : ReorderedEntries xs ys)
    (hx : Table.Distinct xs) : Table.Distinct ys := by
  have hkeys : xs.map Prod.fst = ys.map Prod.fst := by
    clear hx
    induction xs generalizing ys with
    | nil =>
      cases h
      rfl
    | cons e xs ih =>
      cases h with
      | cons j hvw hrest => rw [List.map_cons, List.map_cons, ih hrest]
  unfold Table.Distinct at hx ⊢
  rw [← List.pairwise_map (f := Prod.fst) (R := fun a b : Scalar => (a == b) = false)] at hx ⊢
  rwa [← hkeys]

/-- What two mappings have at a key stays related if the relation is weakened on the values of the
first. -/
lemma rel_get?_imp {R S : Value → Value → Prop} {xs ys : Entries} {k : Scalar}
    (h : Option.Rel R (xs.get? k) (ys.get? k))
    (himp : ∀ e ∈ xs, ∀ w, R e.2 w → S e.2 w) : Option.Rel S (xs.get? k) (ys.get? k) := by
  cases hx : xs.get? k with
  | none =>
    rw [hx] at h
    generalize ys.get? k = u at h ⊢
    cases h
    exact .none
  | some v =>
    obtain ⟨e, he, -, rfl⟩ := Table.exists_of_get? hx
    rw [hx] at h
    generalize ys.get? k = u at h ⊢
    cases h with
    | some hvw => exact .some (himp e he _ hvw)

namespace Reordered

variable {v w : Value} {xs ys : Entries}

/-- A mapping is reordered into a mapping, with reordered values under the same keys. -/
lemma exists_mapping (h : Reordered (.mapping xs) w) (hx : Table.Distinct xs) :
    ∃ ys, w = .mapping ys ∧ Table.Distinct ys ∧
      ∀ k, Option.Rel Reordered (Table.get? k xs) (Table.get? k ys) := by
  cases h with
  | mapping hperm hentries =>
    have hz := Table.distinct_of_perm hperm hx
    refine ⟨_, rfl, hentries.distinct hz, fun k => ?_⟩
    rw [Table.get?_of_perm hperm hx k]
    exact hentries.get? k

/-- A reordered value is the same value. -/
theorem same (h : Reordered v w) (hv : v.WellFormed) : v.same w = true := by
  induction v using inductionOnMembers generalizing w with
  | scalar s =>
    cases h
    rw [Value.same]
    exact BEq.rfl
  | list items ih =>
    cases h with
    | list hitems =>
      rename_i ys
      rw [Value.same]
      -- The items keep their places, so this is an induction along both lists.
      induction items generalizing ys with
      | nil =>
        cases hitems
        rw [sameItems]
      | cons x xs ihx =>
        cases hitems with
        | cons hxy hrest =>
          obtain ⟨hwell, hmore⟩ := hv
          rw [sameItems, Bool.and_eq_true]
          exact ⟨ih x List.mem_cons_self hxy hwell,
            ihx (fun y hy => ih y (List.mem_cons_of_mem _ hy)) hmore hrest⟩
  | mapping entries ih =>
    obtain ⟨hdistinct, hvalues⟩ := wellFormed_mapping.1 hv
    obtain ⟨ys, rfl, hys, hget⟩ := h.exists_mapping hdistinct
    refine (same_mapping_iff hdistinct hys).2 fun k => ?_
    exact rel_get?_imp (hget k) fun e he w hvw => ih e he hvw (hvalues e he)

/-- A reordered value has no key twice if the value has none. -/
theorem wellFormed (h : Reordered v w) (hv : v.WellFormed) : w.WellFormed := by
  induction v using inductionOnMembers generalizing w with
  | scalar s =>
    cases h
    exact hv
  | list items ih =>
    cases h with
    | list hitems =>
      rename_i ys
      rw [WellFormed]
      induction items generalizing ys with
      | nil =>
        cases hitems
        trivial
      | cons x xs ihx =>
        cases hitems with
        | cons hxy hrest =>
          obtain ⟨hwell, hmore⟩ := hv
          exact ⟨ih x List.mem_cons_self hxy hwell,
            ihx (fun y hy => ih y (List.mem_cons_of_mem _ hy)) hmore hrest⟩
  | mapping entries ih =>
    obtain ⟨hdistinct, hvalues⟩ := wellFormed_mapping.1 hv
    obtain ⟨ys, rfl, hys, hget⟩ := h.exists_mapping hdistinct
    refine wellFormed_mapping.2 ⟨hys, fun e he => ?_⟩
    -- An entry is what the reordered mapping reads at its key, where the first one has its like.
    have hk : Option.Rel (fun _ w : Value => w.WellFormed) (entries.get? e.1) (some e.2) := by
      rw [← Table.get?_of_mem hys he]
      exact rel_get?_imp (hget e.1) fun f hf w hvw => ih f hf hvw (hvalues f hf)
    generalize entries.get? e.1 = u at hk
    cases hk with
    | some hformed => exact hformed

end Reordered

/-- A decoded value is the same as itself. -/
theorem same_refl {v : Value} (h : v.WellFormed) : v.same v = true := (Reordered.refl v).same h

/-- Sameness is an equivalence of decoded values. -/
theorem equivalence_same :
    Equivalence fun v w : { v : Value // v.WellFormed } => v.1.same w.1 = true where
  refl v := same_refl v.2
  symm {v w} h := same_symm v.2 w.2 h
  trans h h' := same_trans h h'

end Value

end ProfileCompiler
