import ProfileCompiler.Proofs.Resolution.Collection
import ProfileCompiler.Proofs.Resolution.Values
import ProfileCompiler.Proofs.Value.Reordering

/-!
# One specification, reached several times

A check can be reached by its name, by its controls, by its configuration elements and from several
profiles, and its specification is then merged into what it made itself.  This changes a list that
has items which are the same, for the merge keeps the first of them only.  It changes nothing else
(`mergeValues_self`), and once is as good as several times (`mergeValues_withoutRepetitions`).

The main result is `Resolution.resolve_repeated`.
-/

namespace ProfileCompiler

namespace Value

/-- The value, if it is a list with the first of its same items only. -/
def withoutRepetitions : Value → Value
  | .list items => .list (firstOccurrences items)
  | v => v

/-- A value stays as it is if it is no list with an item that is the same as one before it. -/
lemma withoutRepetitions_eq_self_iff {v : Value} :
    v.withoutRepetitions = v ↔
      ∀ items, v = .list items → items.Pairwise fun v w => (v == w) = false := by
  cases v with
  | scalar x => simp [withoutRepetitions]
  | list items => simp [withoutRepetitions, firstOccurrences_eq_self_iff]
  | mapping entries => simp [withoutRepetitions]

end Value

/-! ## Merging a value into itself -/

/-- A mapping stays as it is if entries are merged into it that it has. -/
lemma mergeEntries_of_subset {dest source : Entries} (hdest : Table.Distinct dest)
    (hself : ∀ e ∈ source, e ∈ dest ∧ mergedValue none (some e.2) e.2 = e.2) :
    mergeEntries none dest source = dest := by
  induction source with
  | nil => rw [mergeEntries]
  | cons e rest ih =>
    obtain ⟨⟨hmem, hvalue⟩, hrest⟩ := List.forall_mem_cons.1 hself
    have hget : dest.get? e.1 = some e.2 := Table.get?_of_mem hdest hmem
    rw [mergeEntries_cons, hget, hvalue, Table.put_of_get? hget]
    exact ih hrest

/-- A decoded value that is merged into itself stays as it is. -/
lemma mergedValue_self {v : Value} (hv : v.WellFormed) : mergedValue none (some v) v = v := by
  induction v using Value.inductionOnMembers with
  | scalar x => rw [mergedValue_of_not_mapping _ rfl]
  | list items => rw [mergedValue_of_not_mapping _ rfl]
  | mapping entries ih =>
    obtain ⟨hdistinct, hvalues⟩ := Value.wellFormed_mapping.1 hv
    rw [mergedValue_mapping, mergeEntries_of_subset hdistinct fun e he =>
      ⟨he, ih e he (hvalues e he)⟩]

lemma firstOccurrences_append_self {items : List Value} (h : ∀ v ∈ items, v.WellFormed) :
    firstOccurrences (items ++ items) = firstOccurrences items :=
  firstOccurrences_append_of_any fun v hv =>
    List.any_eq_true.2 ⟨v, hv, Value.same_refl (h v hv)⟩

/-- Merging a value into itself takes its repetitions away. -/
lemma mergeValues_self {v : Value} (hv : v.WellFormed) :
    mergeValues v v = .ok v.withoutRepetitions := by
  cases v with
  | scalar x => rfl
  | list items =>
    rw [mergeValues, union_eq, firstOccurrences_append_self (Value.wellFormed_list.1 hv)]
    rfl
  | mapping entries =>
    have hself := mergedValue_self hv
    rw [mergedValue_mapping] at hself
    show Except.ok (Value.mapping (mergeEntries none entries entries)) = _
    rw [hself]
    rfl

/-- Merging the value once more changes nothing. -/
lemma mergeValues_withoutRepetitions {v : Value} (hv : v.WellFormed) :
    mergeValues v.withoutRepetitions v = .ok v.withoutRepetitions := by
  cases v with
  | scalar x => rfl
  | mapping entries => exact mergeValues_self hv
  | list items =>
    show Except.ok (Value.list (union (firstOccurrences items) items)) = _
    rw [union_eq, firstOccurrences_append_left,
      firstOccurrences_append_self (Value.wellFormed_list.1 hv)]
    rfl

/-! ## Merging a specification into what it made -/

namespace Assignment

/-- The assignment without the repetitions of its lists. -/
def withoutRepetitions (a : Assignment) : Assignment where
  parameter := a.parameter
  value := a.value.withoutRepetitions
  controls := a.controls.withoutRepetitions
  identifiers := a.identifiers.withoutRepetitions
  ovalIds := a.ovalIds.withoutRepetitions

lemma slot_withoutRepetitions (a : Assignment) (slot : Slot) :
    a.withoutRepetitions.slot slot = (a.slot slot).withoutRepetitions := by
  cases slot with
  | value => rfl
  | metadata f => cases f <;> rfl

/-- The assignment that a specification makes if it is reached the given number of times. -/
def ofRepeated (times : Nat) (s : Specification) : Assignment :=
  if times = 1 then ofSpecification s else (ofSpecification s).withoutRepetitions

lemma withoutRepetitions_eq_self_iff {a : Assignment} :
    a.withoutRepetitions = a ↔ ∀ (slot : Slot) (items : List Value),
      a.slot slot = .list items → items.Pairwise fun v w => (v == w) = false := by
  simp only [← Value.withoutRepetitions_eq_self_iff, ← slot_withoutRepetitions]
  exact ⟨fun h slot => by rw [h], fun h => eq_of_slot_eq rfl h⟩

end Assignment

namespace Slot

variable {s : Specification} {slot : Slot}

/-- A specification that is merged into what it made takes the repetitions of lists away, and merged
once more it changes nothing. -/
lemma takeIn_self (hs : s.WellFormed) (slot : Slot) :
    let a := Assignment.ofSpecification s
    slot.takeIn (a.slot slot) s = .ok (a.withoutRepetitions.slot slot) ∧
      slot.takeIn (a.withoutRepetitions.slot slot) s = .ok (a.withoutRepetitions.slot slot) := by
  intro a
  rw [Assignment.slot_withoutRepetitions, Assignment.slot_ofSpecification]
  unfold takeIn
  cases hoffer : s.offer slot with
  | none => exact ⟨rfl, rfl⟩
  | some v =>
    have hv : v.WellFormed := hs.offer hoffer
    exact ⟨Assignment.mergeField_eq_ok_iff.2 (mergeValues_self hv),
      Assignment.mergeField_eq_ok_iff.2 (mergeValues_withoutRepetitions hv)⟩

/-- What a slot comes to if one specification is merged again and again. -/
lemma outcome_replicate (hs : s.WellFormed) (n : Nat) :
    slot.outcome (List.replicate (n + 1) s) =
      .ok ((Assignment.ofRepeated (n + 1) s).slot slot) := by
  have hfirst : slot.outcome [s] = .ok ((Assignment.ofSpecification s).slot slot) := by
    rw [Assignment.slot_ofSpecification]
    rfl
  induction n with
  | zero => exact hfirst
  | succ n ih =>
    rw [List.replicate_succ', outcome_append_singleton (by simp), ih]
    cases n with
    | zero => exact (takeIn_self hs slot).1
    | succ n => exact (takeIn_self hs slot).2

end Slot

namespace Resolution

variable {profiles : Entries} {index : CheckIndex} {active : List Value}
  {specs : List Specification} {s : Specification} {p : String}

/-- What a specification makes if it is merged again and again. -/
lemma outcome_merge_replicate (hs : s.WellFormed) (n : Nat) :
    (merge (List.replicate (n + 1) s)).outcome =
      .ok [(s.parameter, .ofRepeated (n + 1) s)] := by
  have hp : ∀ t ∈ List.replicate (n + 1) s, t.parameter = s.parameter := by
    intro t ht
    rw [List.eq_of_mem_replicate ht]
  refine (outcome_merge_eq_ok_iff (by simp) hp).2 ⟨_, ?_, rfl, fun slot => ?_⟩
  · unfold Assignment.ofRepeated
    split <;> rfl
  · exact Slot.outcome_replicate hs n

/-- If the specifications of a parameter are all one and the same, its assignment is the one that
this specification makes on its own, but that lists lose their repetitions if it is reached
more than once.  So it is the very same if no list has two items that are the same.  Resolving ends
in a fault only for the sake of another parameter. -/
theorem resolve_repeated (hindex : index.WellFormed)
    (hspecs : (collect profiles index active).outcome = .ok specs) (hp : about p specs ≠ [])
    (hsame : ∀ t ∈ about p specs, t = s) :
    let times := (about p specs).length
    (merge [s]).outcome = .ok [(p, .ofSpecification s)] ∧
    (∀ assignments, (resolve profiles index active).outcome = .ok assignments →
      assignments.get? p = some (.ofRepeated times s)) ∧
    (∀ fault, (resolve profiles index active).outcome = .error fault →
      ∃ q, ∃ slot : Slot, q ≠ p ∧ fault = .unmergeable q slot.key true) ∧
    (Assignment.ofRepeated times s = .ofSpecification s ↔
      times = 1 ∨ ∀ (slot : Slot) (items : List Value),
        (Assignment.ofSpecification s).slot slot = .list items →
          items.Pairwise fun v w => (v == w) = false) := by
  intro times
  obtain ⟨n, hn⟩ : ∃ n, times = n + 1 := Nat.exists_eq_succ_of_ne_zero (by simpa [times] using hp)
  have hown : about p specs = List.replicate times s := List.eq_replicate_iff.2 ⟨rfl, hsame⟩
  have hmem : s ∈ about p specs := by
    rw [hown, hn]
    simp
  obtain ⟨hreached, rfl⟩ := mem_about.1 hmem
  have hs : s.WellFormed := wellFormed_of_collect hindex hspecs s hreached
  have hmerge : (merge (about s.parameter specs)).outcome =
      .ok [(s.parameter, .ofRepeated times s)] := by
    rw [hown, hn]
    exact outcome_merge_replicate hs n
  rw [outcome_resolve hspecs]
  refine ⟨outcome_merge_replicate hs 0, fun assignments h => ?_, fun fault h => ?_, ?_⟩
  · obtain ⟨own, hassign, hget⟩ := exists_assignAll_about (u := []) (p := s.parameter) h rfl
    rw [outcome_merge, hassign] at hmerge
    rw [← hget, Except.ok.inj hmerge]
    simp [Table.get?_cons]
  · -- The specification that breaks is not about this parameter, whose own can be merged.
    obtain ⟨before, t, slot, hfirst, -, hfault⟩ := exists_firstBreak h
    refine ⟨t.parameter, slot, fun hparameter => hfirst.not_mergeable ?_, hfault⟩
    rw [hparameter]
    exact ⟨_, hmerge⟩
  · unfold Assignment.ofRepeated
    by_cases htimes : times = 1
    · simp [htimes]
    · rw [if_neg htimes, Assignment.withoutRepetitions_eq_self_iff]
      simp [htimes]

/-- A check with a list that has an item twice. -/
def doubled : Entries :=
  [(.text "c", .ofTexts [("type", .text "puppet"),
    ("settings", .ofTexts [("parameter", .text "x"), ("value", .list [.int 1, .int 1])]),
    ("controls", .ofTexts [("k", .bool true)])])]

/-- A profile that refers to the check by its name, and one that refers to its control too. -/
def onceAndTwice : Entries :=
  let checks : String × Value := ("checks", .ofTexts [("c", .bool true)])
  [(.text "once", .ofTexts [checks]),
    (.text "twice", .ofTexts [checks, ("controls", .ofTexts [("k", .bool true)])])]

/-- The specification of the check. -/
def doubledSpecification : Specification where
  name := "c"
  checkType := "puppet"
  parameter := "x"
  value := .list [.int 1, .int 1]
  controls := some [(.text "k", .bool true)]
  ces := none
  identifiers := .null
  ovalIds := .null

/-- The check is reached by its name and by its control. -/
theorem resolve_repeated_doubled :
    let index := CheckIndex.ofChecks doubled
    index.WellFormed ∧
      (collect onceAndTwice index [.text "twice"]).outcome =
        .ok [doubledSpecification, doubledSpecification] ∧
      ∃ assignments, (resolve onceAndTwice index [.text "twice"]).outcome = .ok assignments ∧
        assignments.get? "x" = some (.ofRepeated 2 doubledSpecification) := by
  intro index
  have hindex : index.WellFormed := CheckIndex.wellFormed_ofChecks (by decide)
  have hspecs : (collect onceAndTwice index [.text "twice"]).outcome =
      .ok [doubledSpecification, doubledSpecification] := rfl
  have hown : about "x" [doubledSpecification, doubledSpecification] =
      [doubledSpecification, doubledSpecification] := rfl
  have hsame : ∀ t ∈ about "x" [doubledSpecification, doubledSpecification],
      t = doubledSpecification := by
    rw [hown]
    simp
  have hresolved := resolve_repeated hindex hspecs (by rw [hown]; simp) hsame
  obtain ⟨assignments, hassignments⟩ :
      ∃ assignments, (resolve onceAndTwice index [.text "twice"]).outcome = .ok assignments :=
    ⟨_, rfl⟩
  exact ⟨hindex, hspecs, assignments, hassignments, hresolved.2.1 assignments hassignments⟩

/-- The check makes another value if it is reached twice than if it is reached once. -/
theorem resolve_doubled :
    let index := CheckIndex.ofChecks doubled
    (∃ once twice, (collect onceAndTwice index [.text "once"]).outcome = .ok once ∧
      (collect onceAndTwice index [.text "twice"]).outcome = .ok twice ∧
      about "x" once = [doubledSpecification] ∧
      about "x" twice = [doubledSpecification, doubledSpecification]) ∧
    (∃ assignments a, (resolve onceAndTwice index [.text "once"]).outcome = .ok assignments ∧
      assignments.get? "x" = some a ∧ a.value = .list [.int 1, .int 1]) ∧
    ∃ assignments a, (resolve onceAndTwice index [.text "twice"]).outcome = .ok assignments ∧
      assignments.get? "x" = some a ∧ a.value = .list [.int 1] :=
  ⟨⟨_, _, rfl, rfl, rfl, rfl⟩, ⟨_, _, rfl, rfl, rfl⟩, ⟨_, _, rfl, rfl, rfl⟩⟩

end Resolution

end ProfileCompiler
