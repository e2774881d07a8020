import Mathlib.Data.Set.List
import ProfileCompiler.Proofs.Merge.Paths
import ProfileCompiler.Proofs.Merge.Union
import ProfileCompiler.Proofs.Resolution.Independence

/-!
# The value of one parameter

Specifications of one parameter give it values in a row.  Merging a value into what is held so far
depends on the kinds of the two, and what is held is always of the kind of the value that was merged
last (`kind_of_mergeValues`).  So whether all values can be merged is decided by the kinds of
neighbours (`Assignment.mergeInOrder_eq_error_iff`).  If they can, they are scalars up to some
point, which leave nothing behind, and from there on all lists or all mappings
(`exists_comesOut`).

The main result is `Resolution.outcome_merge_of_bare`, the closed form of merging specifications of
one parameter that have no metadata.
-/

namespace ProfileCompiler

/-! ## Neighbours -/

/-- A list is followed by something else than a list, or a mapping by something else than a
mapping. -/
def Clashes (v w : Value) : Prop :=
  v.kind = .list ∧ w.kind ≠ .list ∨ v.kind = .mapping ∧ w.kind ≠ .mapping

/-- Somewhere in a row of values two neighbours clash. -/
def HasClash (values : List Value) : Prop :=
  ∃ i v w, values[i]? = some v ∧ values[i + 1]? = some w ∧ Clashes v w

lemma hasClash_cons_cons {v w : Value} {rest : List Value} :
    HasClash (v :: w :: rest) ↔ Clashes v w ∨ HasClash (w :: rest) := by
  constructor
  · rintro ⟨i, x, y, hx, hy, hclash⟩
    cases i with
    | zero =>
      obtain rfl : v = x := by simpa using hx
      obtain rfl : w = y := by simpa using hy
      exact .inl hclash
    | succ i => exact .inr ⟨i, x, y, by simpa using hx, by simpa using hy, hclash⟩
  · rintro (hclash | ⟨i, x, y, hx, hy, hclash⟩)
    · exact ⟨0, v, w, rfl, rfl, hclash⟩
    · exact ⟨i + 1, x, y, by simpa using hx, by simpa using hy, hclash⟩

lemma not_hasClash_singleton (v : Value) : ¬ HasClash [v] := by
  rintro ⟨i, x, y, -, hy, -⟩
  simp at hy

/-- Clashes only depend on kinds. -/
lemma hasClash_cons_congr {v w : Value} (h : v.kind = w.kind) (rest : List Value) :
    HasClash (v :: rest) ↔ HasClash (w :: rest) := by
  cases rest with
  | nil => exact iff_of_false (not_hasClash_singleton v) (not_hasClash_singleton w)
  | cons x rest => rw [hasClash_cons_cons, hasClash_cons_cons, Clashes, Clashes, h]

/-! ## One merge -/

lemma kind_scalar_ne (x : Scalar) :
    (Value.scalar x).kind ≠ .list ∧ (Value.scalar x).kind ≠ .mapping := by
  cases x <;> exact ⟨nofun, nofun⟩

lemma exists_mergeValues_iff {held v : Value} :
    (∃ merged, mergeValues held v = .ok merged) ↔ ¬ Clashes held v := by
  cases held with
  | scalar x =>
    refine iff_of_true ⟨v, rfl⟩ ?_
    rintro (⟨hlist, -⟩ | ⟨hmapping, -⟩)
    · exact (kind_scalar_ne x).1 hlist
    · exact (kind_scalar_ne x).2 hmapping
  | list xs =>
    cases v with
    | list ys => exact iff_of_true ⟨_, rfl⟩ (by simp [Clashes, Value.kind])
    | scalar x => exact iff_of_false nofun (not_not.2 (.inl ⟨rfl, (kind_scalar_ne x).1⟩))
    | mapping ys => exact iff_of_false nofun (not_not.2 (.inl ⟨rfl, nofun⟩))
  | mapping xs =>
    cases v with
    | mapping ys => exact iff_of_true ⟨_, rfl⟩ (by simp [Clashes, Value.kind])
    | scalar x => exact iff_of_false nofun (not_not.2 (.inr ⟨rfl, (kind_scalar_ne x).2⟩))
    | list ys => exact iff_of_false nofun (not_not.2 (.inr ⟨rfl, nofun⟩))

/-- What is held after a merge is of the kind of the value that was merged. -/
lemma kind_of_mergeValues {held v merged : Value} (h : mergeValues held v = .ok merged) :
    merged.kind = v.kind := by
  cases held <;> cases v <;> cases h <;> rfl

/-! ## Merges in a row -/

/-- What values in a row come to. -/
inductive ComesOut : List Value → Value → Prop
  /-- Of scalars the last one. -/
  | scalars (before : List Scalar) (last : Scalar) :
    ComesOut (before.map .scalar ++ [.scalar last]) (.scalar last)
  /-- A list on its own. -/
  | list (before : List Scalar) (items : List Value) :
    ComesOut (before.map .scalar ++ [.list items]) (.list items)
  /-- Several lists, without repetitions. -/
  | lists (before : List Scalar) (lists : List (List Value)) :
    2 ≤ lists.length →
      ComesOut (before.map .scalar ++ lists.map .list) (.list (firstOccurrences lists.flatten))
  /-- Mappings, merged without a knockout mark. -/
  | mappings (before : List Scalar) (first : Entries) (rest : List Entries) :
    ComesOut (before.map .scalar ++ (first :: rest).map .mapping)
      ((rest.map .mapping).foldl (deepMerge none) (.mapping first))

lemma ComesOut.cons {values : List Value} {v : Value} (h : ComesOut values v) (x : Scalar) :
    ComesOut (.scalar x :: values) v := by
  cases h with
  | scalars before last => exact .scalars (x :: before) last
  | list before items => exact .list (x :: before) items
  | lists before lists hseveral => exact .lists (x :: before) lists hseveral
  | mappings before first rest => exact .mappings (x :: before) first rest

/-- Behind a list or a mapping come values of its kind, if no neighbours clash. -/
lemma kind_of_not_hasClash {v : Value} {rest : List Value}
    (hv : v.kind = .list ∨ v.kind = .mapping) (h : ¬ HasClash (v :: rest)) :
    ∀ w ∈ rest, w.kind = v.kind := by
  induction rest generalizing v with
  | nil => exact nofun
  | cons w rest ih =>
    obtain ⟨hw, hrest⟩ := not_or.1 (mt hasClash_cons_cons.2 h)
    have hkind : w.kind = v.kind := by
      unfold Clashes at hw
      rcases hv with hv | hv <;> simpa [hv] using hw
    have hothers : ∀ u ∈ rest, u.kind = w.kind := ih (by rwa [hkind]) hrest
    exact List.forall_mem_cons.2 ⟨hkind, fun u hu => (hothers u hu).trans hkind⟩

lemma exists_of_kind_list {v : Value} (h : v.kind = .list) : ∃ items, .list items = v := by
  cases v with
  | scalar x => exact absurd h (kind_scalar_ne x).1
  | list items => exact ⟨items, rfl⟩
  | mapping entries => cases h

lemma exists_of_kind_mapping {v : Value} (h : v.kind = .mapping) :
    ∃ entries, .mapping entries = v := by
  cases v with
  | scalar x => exact absurd h (kind_scalar_ne x).2
  | list items => cases h
  | mapping entries => exact ⟨entries, rfl⟩

/-- Values without a clash come to something. -/
lemma exists_comesOut {values : List Value} (hne : values ≠ []) (h : ¬ HasClash values) :
    ∃ v, ComesOut values v := by
  induction values with
  | nil => exact absurd rfl hne
  | cons v rest ih =>
    cases v with
    | scalar x =>
      cases rest with
      | nil => exact ⟨.scalar x, .scalars [] x⟩
      | cons w rest =>
        obtain ⟨v, hv⟩ := ih (by simp) fun hclash => h (hasClash_cons_cons.2 (.inr hclash))
        exact ⟨v, hv.cons x⟩
    | list items =>
      have hkinds : ∀ w ∈ rest, w.kind = .list := kind_of_not_hasClash (.inl rfl) h
      obtain ⟨lists, rfl⟩ : rest ∈ Set.range (List.map Value.list) := by
        rw [Set.range_list_map]
        exact fun w hw => exists_of_kind_list (hkinds w hw)
      cases lists with
      | nil => exact ⟨.list items, .list [] items⟩
      | cons more lists => exact ⟨_, .lists [] (items :: more :: lists) (by simp)⟩
    | mapping entries =>
      have hkinds : ∀ w ∈ rest, w.kind = .mapping := kind_of_not_hasClash (.inr rfl) h
      obtain ⟨mappings, rfl⟩ : rest ∈ Set.range (List.map Value.mapping) := by
        rw [Set.range_list_map]
        exact fun w hw => exists_of_kind_mapping (hkinds w hw)
      exact ⟨_, .mappings [] entries mappings⟩

/-- Without a mark all keys stay, those that look like knockout keys too. -/
lemma has_mergeEntries (dest source : Entries) (k : Scalar) :
    Table.has k (mergeEntries none dest source) = (Table.has k dest || Table.has k source) := by
  induction source generalizing dest with
  | nil =>
    rw [mergeEntries]
    exact (Bool.or_false _).symm
  | cons e rest ih =>
    obtain ⟨j, v⟩ := e
    rw [mergeEntries_cons, ih]
    unfold Table.has
    rw [Table.get?_put, Table.get?_cons]
    cases j == k <;> simp

lemma exists_foldl_deepMerge (first : Entries) (rest : List Entries) :
    ∃ result : Entries,
      (rest.map Value.mapping).foldl (deepMerge none) (.mapping first) = .mapping result ∧
        ∀ k, result.has k = (first :: rest).any (Table.has k) := by
  induction rest generalizing first with
  | nil => exact ⟨first, rfl, fun k => by simp⟩
  | cons entries rest ih =>
    obtain ⟨result, hresult, hkeys⟩ := ih (mergeEntries none first entries)
    refine ⟨result, hresult, fun k => ?_⟩
    rw [hkeys, List.any_cons, has_mergeEntries, List.any_cons, List.any_cons, Bool.or_assoc]

namespace Assignment

variable {p field : String} {values : List Value}

/-- What is held of a field after values in a row. -/
def mergeInOrder (p field : String) : List Value → Except Fault Value
  | [] => .ok (.mapping [])
  | v :: rest => rest.foldlM (mergeField p field) v

/-- What cannot be merged into a field ends in the fault of the field. -/
lemma mergeField_eq_error_iff {held v : Value} {fault : Fault} :
    mergeField p field held v = .error fault ↔
      fault = .unmergeable p field true ∧ Clashes held v := by
  rw [← not_not (a := Clashes held v), ← exists_mergeValues_iff, mergeField_eq]
  cases mergeValues held v <;> simp [Except.mapError, eq_comm]

lemma mergeField_eq_ok_iff {held v merged : Value} :
    mergeField p field held v = .ok merged ↔ mergeValues held v = .ok merged := by
  rw [mergeField]
  cases mergeValues held v <;> simp [Except.mapError]

/-- Values cannot be merged into what is held if there is a clash among them or at their start. -/
lemma foldlM_mergeField_eq_error_iff {held : Value} {rest : List Value} {fault : Fault} :
    rest.foldlM (mergeField p field) held = .error fault ↔
      fault = .unmergeable p field true ∧ HasClash (held :: rest) := by
  induction rest generalizing held with
  | nil => simp [not_hasClash_singleton, pure, Except.pure]
  | cons v rest ih =>
    rw [List.foldlM_cons, hasClash_cons_cons]
    cases hmerge : mergeField p field held v with
    | error e =>
      obtain ⟨rfl, hclash⟩ := mergeField_eq_error_iff.1 hmerge
      show Except.error _ = Except.error fault ↔ _
      simp [hclash, eq_comm]
    | ok merged =>
      have hvalues : mergeValues held v = .ok merged := mergeField_eq_ok_iff.1 hmerge
      have hnot : ¬ Clashes held v := exists_mergeValues_iff.1 ⟨merged, hvalues⟩
      -- What is held next is of the kind of `v`, so it clashes with what follows as `v` does.
      show rest.foldlM (mergeField p field) merged = .error fault ↔ _
      rw [ih, hasClash_cons_congr (kind_of_mergeValues hvalues)]
      simp [hnot]

/-- Scalars leave nothing behind. -/
lemma mergeInOrder_scalars (before : List Scalar) (v : Value) (rest : List Value) :
    mergeInOrder p field (before.map .scalar ++ v :: rest) =
      rest.foldlM (mergeField p field) v := by
  cases before with
  | nil => rfl
  | cons x before =>
    show (before.map Value.scalar ++ v :: rest).foldlM (mergeField p field) (.scalar x) = _
    induction before generalizing x with
    | nil => rfl
    | cons y before ih => exact ih y

lemma foldlM_mergeField_lists (first : List Value) (lists : List (List Value)) :
    (lists.map .list).foldlM (mergeField p field) (.list first) =
      .ok (.list (lists.foldl union first)) := by
  induction lists generalizing first with
  | nil => rfl
  | cons items lists ih => exact ih (union first items)

lemma foldlM_mergeField_mappings (first : Entries) (rest : List Entries) :
    (rest.map .mapping).foldlM (mergeField p field) (.mapping first) =
      .ok ((rest.map .mapping).foldl (deepMerge none) (.mapping first)) := by
  induction rest generalizing first with
  | nil => rfl
  | cons entries rest ih => exact ih _

/-- Values are merged in order into what they come to. -/
lemma mergeInOrder_of_comesOut {v : Value} (h : ComesOut values v) :
    mergeInOrder p field values = .ok v := by
  cases h with
  | scalars before last => exact mergeInOrder_scalars before _ []
  | list before items => exact mergeInOrder_scalars before _ []
  | lists before lists hseveral =>
    cases lists with
    | nil => simp at hseveral
    | cons first lists =>
      have hne : lists ≠ [] := by
        rintro rfl
        simp at hseveral
      rw [List.map_cons, mergeInOrder_scalars, foldlM_mergeField_lists, foldl_union first hne,
        List.flatten_cons]
  | mappings before first rest =>
    rw [List.map_cons, mergeInOrder_scalars, foldlM_mergeField_mappings]

/-- Values in a row cannot be merged if two neighbours clash. -/
theorem mergeInOrder_eq_error_iff {fault : Fault} :
    mergeInOrder p field values = .error fault ↔
      fault = .unmergeable p field true ∧ HasClash values := by
  cases values with
  | nil =>
    refine iff_of_false nofun ?_
    rintro ⟨-, i, v, w, hv, -⟩
    simp at hv
  | cons v rest => exact foldlM_mergeField_eq_error_iff

/-- If none do, the values are merged into what they come to. -/
theorem mergeInOrder_eq_ok_iff (hne : values ≠ []) {v : Value} :
    mergeInOrder p field values = .ok v ↔ ComesOut values v := by
  refine ⟨fun h => ?_, mergeInOrder_of_comesOut⟩
  have hclash : ¬ HasClash values := fun hclash => by
    cases h.symm.trans (mergeInOrder_eq_error_iff.2 ⟨rfl, hclash⟩)
  obtain ⟨w, hw⟩ := exists_comesOut hne hclash
  obtain rfl : v = w := Except.ok.inj (h.symm.trans (mergeInOrder_of_comesOut hw))
  exact hw

end Assignment

/-! ## One parameter -/

/-- The assignment of a value without metadata. -/
def Assignment.bare (p : String) (v : Value) : Assignment where
  parameter := p
  value := v
  controls := .mapping []
  identifiers := .mapping []
  ovalIds := .mapping []

lemma Assignment.slot_bare (p : String) (v : Value) (f : MetadataField) :
    (bare p v).slot (.metadata f) = .mapping [] := by
  cases f <;> rfl

/-- If the first specification has something for a slot, the slot holds in the end what all have for
it, merged in order. -/
lemma Slot.outcome_of_offer {slot : Slot} {p : String} {s : Specification}
    {rest : List Specification} (hspecs : ∀ t ∈ s :: rest, t.parameter = p) {v : Value}
    (hoffer : s.offer slot = some v) :
    slot.outcome (s :: rest) =
      Assignment.mergeInOrder p slot.key ((s :: rest).filterMap fun t => t.offer slot) := by
  rw [outcome, foldlM_takeIn (List.forall_mem_cons.1 hspecs).2, List.filterMap_cons,
    hoffer]
  rfl

/-- If no specification has something for a slot, the slot holds an empty mapping. -/
lemma Slot.outcome_of_no_offer {slot : Slot} {specs : List Specification}
    (hoffer : ∀ s ∈ specs, s.offer slot = none) : slot.outcome specs = .ok (.mapping []) := by
  induction specs using List.reverseRecOn with
  | nil => rfl
  | append_singleton specs s ih =>
    have hs : s.offer slot = none := hoffer s (by simp)
    have hbefore : slot.outcome specs = .ok (.mapping []) :=
      ih fun t ht => hoffer t (List.mem_append_left _ ht)
    by_cases hne : specs = []
    · subst hne
      rw [List.nil_append, outcome, hs]
      rfl
    · rw [outcome_append_singleton hne, hbefore]
      show slot.takeIn (.mapping []) s = _
      rw [takeIn, hs]

namespace Resolution

variable {specs : List Specification} {p : String}

/-- Specifications of one parameter make one assignment. -/
lemma exists_of_assignAll_eq_ok (hne : specs ≠ []) (hp : ∀ s ∈ specs, s.parameter = p)
    {t : Assignments} (h : assignAll [] specs = .ok t) :
    ∃ a : Assignment, a.parameter = p ∧ t = [(p, a)] := by
  induction specs using List.reverseRecOn generalizing t with
  | nil => exact absurd rfl hne
  | append_singleton specs s ih =>
    obtain ⟨mid, hmid, hassign⟩ := assignAll_append_singleton_eq_ok_iff.1 h
    obtain ⟨b, hb, rfl⟩ := assign_eq_ok_iff.1 hassign
    obtain rfl : s.parameter = p := hp s (by simp)
    by_cases hfirst : specs = []
    · subst hfirst
      cases hmid
      cases hb
      exact ⟨_, rfl, rfl⟩
    · obtain ⟨a, ha, rfl⟩ := ih hfirst (fun t ht => hp t (List.mem_append_left _ ht)) hmid
      have hget : Table.get? s.parameter [(s.parameter, a)] = some a := by simp [Table.get?_cons]
      rw [hget] at hb
      exact ⟨b, (Assignment.parameter_of_take hb).trans ha, by simp [Table.put]⟩

/-- Specifications of one parameter that cannot be merged cannot be merged in a slot. -/
lemma exists_of_outcome_merge_eq_error (hp : ∀ s ∈ specs, s.parameter = p) {fault : Fault}
    (h : (merge specs).outcome = .error fault) :
    ∃ slot : Slot, slot.outcome specs = .error fault := by
  have haccounts := accounts_assignAll specs
  rw [← outcome_merge, h] at haccounts
  obtain ⟨q, slot, hslot⟩ := haccounts
  refine ⟨slot, ?_⟩
  by_cases hq : q = p
  · rwa [hq, about_eq_self hp] at hslot
  · have hnone : about q specs = [] := List.filter_eq_nil_iff.2 fun s hs hs' =>
      hq ((beq_iff_eq.1 hs').symm.trans (hp s hs))
    rw [hnone] at hslot
    cases hslot

/-- Specifications of one parameter make the assignment that holds in each slot what they come to
there. -/
lemma outcome_merge_eq_ok_iff (hne : specs ≠ []) (hp : ∀ s ∈ specs, s.parameter = p)
    {t : Assignments} :
    (merge specs).outcome = .ok t ↔ ∃ a : Assignment, a.parameter = p ∧ t = [(p, a)] ∧
      ∀ slot : Slot, slot.outcome specs = .ok (a.slot slot) := by
  have hforward : ∀ {t}, (merge specs).outcome = .ok t → ∃ a : Assignment, a.parameter = p ∧
      t = [(p, a)] ∧ ∀ slot : Slot, slot.outcome specs = .ok (a.slot slot) := by
    intro t h
    have haccounts := accounts_assignAll specs
    rw [outcome_merge] at h
    rw [h] at haccounts
    obtain ⟨a, ha, rfl⟩ := exists_of_assignAll_eq_ok hne hp h
    have hreflects : Reflects specs [(p, a)] := haccounts
    have hslots := (hreflects.present p a (by simp [Table.get?_cons])).2
    rw [about_eq_self hp] at hslots
    exact ⟨a, ha, rfl, hslots⟩
  refine ⟨hforward, ?_⟩
  rintro ⟨a, ha, rfl, hslots⟩
  cases hmerge : (merge specs).outcome with
  | ok t =>
    obtain ⟨b, hb, rfl, hsame⟩ := hforward hmerge
    have hab : a = b := Assignment.eq_of_slot_eq (ha.trans hb.symm) fun slot =>
      Except.ok.inj ((hslots slot).symm.trans (hsame slot))
    rw [hab]
  | error fault =>
    obtain ⟨slot, hslot⟩ := exists_of_outcome_merge_eq_error hp hmerge
    cases hslot.symm.trans (hslots slot)

/-- Specifications of one parameter without metadata are merged exactly if no value is a list
followed by something else, or a mapping followed by something else.  The value is then what the
values come to.  If this is a mapping, it has the keys of all mappings. -/
theorem outcome_merge_of_bare (hne : specs ≠ []) (hp : ∀ s ∈ specs, s.parameter = p)
    (hbare : ∀ s ∈ specs, ∀ f, (s.metadata f).isNull = true) :
    (∀ fault, (merge specs).outcome = .error fault ↔
      fault = .unmergeable p "value" true ∧ HasClash (specs.map Specification.value)) ∧
    (∀ t, (merge specs).outcome = .ok t ↔
      ∃ v, ComesOut (specs.map Specification.value) v ∧ t = [(p, .bare p v)]) ∧
    ∀ (before : List Scalar) (first : Entries) (rest : List Entries),
      specs.map Specification.value =
          before.map .scalar ++ (first :: rest).map .mapping →
        ∃ result : Entries, (merge specs).outcome = .ok [(p, .bare p (.mapping result))] ∧
          ∀ k, result.has k = (first :: rest).any (Table.has k) := by
  have hnovalue : (specs.map Specification.value) ≠ [] := mt List.map_eq_nil_iff.1 hne
  have hvalue : Slot.value.outcome specs =
      Assignment.mergeInOrder p "value" (specs.map Specification.value) := by
    obtain ⟨s, rest, rfl⟩ := List.exists_cons_of_ne_nil hne
    rw [Slot.outcome_of_offer hp (v := s.value) rfl, ← List.filterMap_eq_map]
    rfl
  -- No specification offers metadata, so the slots for it stay empty and end in no fault.
  have hmetadata : ∀ f : MetadataField, (Slot.metadata f).outcome specs = .ok (.mapping []) :=
    fun f => Slot.outcome_of_no_offer fun s hs => if_pos (hbare s hs f)
  have hslots : ∀ v, Slot.value.outcome specs = .ok v →
      ∀ slot : Slot, slot.outcome specs = .ok ((Assignment.bare p v).slot slot) := by
    intro v hv slot
    cases slot with
    | value => exact hv
    | metadata f => rw [hmetadata, Assignment.slot_bare]
  -- A merge that succeeds is determined by its slots, and only that of the value says anything.
  have hok : ∀ t, (merge specs).outcome = .ok t ↔
      ∃ v, ComesOut (specs.map Specification.value) v ∧ t = [(p, .bare p v)] := by
    intro t
    rw [outcome_merge_eq_ok_iff hne hp]
    constructor
    · rintro ⟨a, ha, rfl, hheld⟩
      have hcomes : ComesOut (specs.map Specification.value) a.value :=
        (Assignment.mergeInOrder_eq_ok_iff hnovalue).1 (hvalue.symm.trans (hheld .value))
      have hbareness : a = .bare p a.value := Assignment.eq_of_slot_eq ha fun slot =>
        Except.ok.inj ((hheld slot).symm.trans (hslots _ (hheld .value) slot))
      exact ⟨a.value, hcomes, by rw [← hbareness]⟩
    · rintro ⟨v, hv, rfl⟩
      exact ⟨.bare p v, rfl, rfl, hslots v (hvalue.trans (Assignment.mergeInOrder_of_comesOut hv))⟩
  -- A merge that fails does so in the slot of the value.
  have herror : ∀ fault, (merge specs).outcome = .error fault →
      fault = .unmergeable p "value" true ∧ HasClash (specs.map Specification.value) := by
    intro fault h
    obtain ⟨slot, hslot⟩ := exists_of_outcome_merge_eq_error hp h
    cases slot with
    | value => exact Assignment.mergeInOrder_eq_error_iff.1 (hvalue.symm.trans hslot)
    | metadata f => cases (hmetadata f).symm.trans hslot
  refine ⟨fun fault => ⟨herror fault, ?_⟩, hok, fun before first rest hvalues => ?_⟩
  · rintro ⟨rfl, hclash⟩
    cases hmerge : (merge specs).outcome with
    | error e => rw [(herror e hmerge).1]
    | ok t =>
      obtain ⟨v, hv, -⟩ := (hok t).1 hmerge
      have hfault : Slot.value.outcome specs = .error (.unmergeable p "value" true) :=
        hvalue.trans (Assignment.mergeInOrder_eq_error_iff.2 ⟨rfl, hclash⟩)
      have hheld := hvalue.trans (Assignment.mergeInOrder_of_comesOut hv)
      cases hfault.symm.trans hheld
  · obtain ⟨result, hresult, hkeys⟩ := exists_foldl_deepMerge first rest
    refine ⟨result, (hok _).2 ⟨_, ?_, rfl⟩, hkeys⟩
    rw [hvalues, ← hresult]
    exact .mappings before first rest

/-- Specifications without metadata that give the parameter x values in a row. -/
def valued (values : List Value) : List Specification :=
  values.map fun v =>
    { name := "c", checkType := "puppet", parameter := "x", value := v, controls := none,
      ces := none, identifiers := .null, ovalIds := .null }

/-- A null value is replaced, true is the same item as one, and a text cannot follow a list.  The
key that looks like a knockout key is one key among others. -/
theorem outcome_merge_of_bare_valued :
    (merge (valued [.null, .list [.int 1, .text "a"], .list [.bool true, .int 2]])).outcome =
        .ok [("x", .bare "x" (.list [.int 1, .text "a", .int 2]))] ∧
      (merge (valued [.list [.int 1], .list [.int 1], .text "a"])).outcome =
        .error (.unmergeable "x" "value" true) ∧
      ∃ result : Entries,
        (merge (valued [.ofTexts [("k", .int 1)], .ofTexts [("--k", .int 2)]])).outcome =
            .ok [("x", .bare "x" (.mapping result))] ∧
          result.has (.text "k") = true ∧ result.has (.text "--k") = true := by
  have hp : ∀ values, ∀ s ∈ valued values, s.parameter = "x" := by
    simp [valued]
  have hbare : ∀ values, ∀ s ∈ valued values, ∀ f, (s.metadata f).isNull = true := by
    intro values s hs f
    obtain ⟨v, -, rfl⟩ := List.mem_map.1 hs
    cases f <;> rfl
  refine ⟨?_, ?_, ?_⟩
  · have hlists := (outcome_merge_of_bare (by simp [valued]) (hp _) (hbare
      [.null, .list [.int 1, .text "a"], .list [.bool true, .int 2]])).2.1
    exact (hlists _).2
      ⟨_, .lists [.null] [[.int 1, .text "a"], [.bool true, .int 2]] (by decide), rfl⟩
  · have hclash := (outcome_merge_of_bare (by simp [valued]) (hp _) (hbare
      [.list [.int 1], .list [.int 1], .text "a"])).1
    exact (hclash _).2 ⟨rfl, 1, .list [.int 1], .text "a", rfl, rfl, .inl ⟨rfl, nofun⟩⟩
  · have hkeys := (outcome_merge_of_bare (by simp [valued]) (hp _) (hbare
      [.ofTexts [("k", .int 1)], .ofTexts [("--k", .int 2)]])).2.2
    obtain ⟨result, hmerge, hresult⟩ := hkeys [] [(.text "k", .int 1)] [[(.text "--k", .int 2)]] rfl
    exact ⟨result, hmerge, by rw [hresult]; rfl, by rw [hresult]; rfl⟩

end Resolution

end ProfileCompiler
