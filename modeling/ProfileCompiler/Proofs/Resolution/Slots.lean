import Mathlib.Data.List.Find
import Mathlib.Data.List.Induction
import ProfileCompiler.Proofs.CheckIndex.WellFormed
import ProfileCompiler.Resolution

/-!
# Resolving slot by slot

An assignment has a value and three metadata fields, its slots.  Specifications are merged one
after the other, and each of them into all slots at once.  But no slot depends on another one, and
no parameter on another one.  What a slot of a parameter comes to is `Slot.outcome` of the
specifications of that parameter.

The main results are `Resolution.resolve_accounts`, about all slots, and
`Resolution.comesTo_outcome`, about one.  If the specifications are resolved, each slot of each
parameter holds its outcome.  If they are not, the fault is the outcome of a slot.
-/

namespace ProfileCompiler

/-! ## Merging one field -/

/-- Merging values can only fail over their shapes. -/
lemma isShapeMismatch_of_mergeValues {held v : Value} {fault : Fault}
    (h : mergeValues held v = .error fault) : fault.isShapeMismatch = true := by
  unfold mergeValues at h
  split at h
  · cases h
  · cases h
  · cases h
  · rw [← Except.error.inj h]
    rfl

/-- So the fault of a field is always told as a mismatch. -/
lemma Assignment.mergeField_eq (p field : String) (held v : Value) :
    mergeField p field held v =
      (mergeValues held v).mapError fun _ => .unmergeable p field true := by
  rw [mergeField]
  cases hmerge : mergeValues held v with
  | ok merged => rfl
  | error fault =>
    show Except.error (Fault.unmergeable p field fault.isShapeMismatch) = _
    rw [isShapeMismatch_of_mergeValues hmerge]
    rfl

/-! ## Slots -/

/-- What specifications are merged into: the value of an assignment, or a metadata field. -/
inductive Slot where
  | value
  | metadata (field : MetadataField)
deriving DecidableEq

/-- What an assignment holds in a slot. -/
def Assignment.slot (a : Assignment) : Slot → Value
  | .value => a.value
  | .metadata f => a.metadata f

/-- What a specification has for a slot.  It always has a value. -/
def Specification.offer (s : Specification) : Slot → Option Value
  | .value => some s.value
  | .metadata f => if (s.metadata f).isNull then none else some (s.metadata f)

lemma Specification.WellFormed.offer {s : Specification} (hs : s.WellFormed) {slot : Slot}
    {v : Value} (hoffer : s.offer slot = some v) : v.WellFormed := by
  cases slot with
  | value =>
    cases hoffer
    exact hs.value
  | metadata f =>
    obtain ⟨-, hsome⟩ := Option.ite_none_left_eq_some.1 hoffer
    rw [← Option.some.inj hsome]
    exact hs.metadata f

namespace Slot

/-- The name of a slot in messages. -/
def key : Slot → String
  | .value => "value"
  | .metadata f => f.key

/-- The slots in the order in which they are merged. -/
def all : List Slot := .value :: MetadataField.all.map .metadata

lemma mem_all (slot : Slot) : slot ∈ all := by
  cases slot with
  | value => exact List.mem_cons_self
  | metadata f => cases f <;> decide

/-- What a slot holds after one more specification. -/
def takeIn (slot : Slot) (held : Value) (s : Specification) : Except Fault Value :=
  match s.offer slot with
  | none => .ok held
  | some v => Assignment.mergeField s.parameter slot.key held v

/-- What a slot comes to when specifications of one parameter are merged.  The first of them
fills the slot, be it with an empty mapping. -/
def outcome (slot : Slot) : List Specification → Except Fault Value
  | [] => .ok (.mapping [])
  | s :: rest => rest.foldlM slot.takeIn ((s.offer slot).getD (.mapping []))

variable {slot : Slot} {specs : List Specification}

lemma outcome_append (hne : specs ≠ []) (more : List Specification) :
    slot.outcome (specs ++ more) =
      slot.outcome specs >>= fun held => more.foldlM slot.takeIn held := by
  obtain ⟨s, rest, rfl⟩ := List.exists_cons_of_ne_nil hne
  exact List.foldlM_append

lemma outcome_append_singleton (hne : specs ≠ []) (s : Specification) :
    slot.outcome (specs ++ [s]) = slot.outcome specs >>= fun held => slot.takeIn held s := by
  rw [outcome_append hne]
  simp only [List.foldlM_cons, List.foldlM_nil, bind_pure]

/-- A slot that cannot be merged stays so. -/
lemma outcome_append_of_error {fault : Fault} (h : slot.outcome specs = .error fault)
    (more : List Specification) : slot.outcome (specs ++ more) = .error fault := by
  have hne : specs ≠ [] := by
    rintro rfl
    cases h
  rw [outcome_append hne, h]
  rfl

lemma eq_of_takeIn_error {held : Value} {s : Specification} {fault : Fault}
    (h : slot.takeIn held s = .error fault) : fault = .unmergeable s.parameter slot.key true := by
  unfold takeIn at h
  split at h
  · cases h
  · rename_i v hv
    rw [Assignment.mergeField_eq] at h
    cases hmerge : mergeValues held v with
    | ok merged =>
      rw [hmerge] at h
      cases h
    | error e =>
      rw [hmerge] at h
      exact (Except.error.inj h).symm

/-- Specifications that have nothing for a slot are passed over. -/
lemma foldlM_takeIn {p : String} (hspecs : ∀ s ∈ specs, s.parameter = p) (held : Value) :
    specs.foldlM slot.takeIn held =
      (specs.filterMap fun s => s.offer slot).foldlM (Assignment.mergeField p slot.key) held := by
  induction specs generalizing held with
  | nil => rfl
  | cons s rest ih =>
    obtain ⟨hs, hrest⟩ := List.forall_mem_cons.1 hspecs
    rw [List.foldlM_cons, List.filterMap_cons]
    unfold takeIn
    cases hoffer : s.offer slot with
    | none => exact ih hrest held
    | some v =>
      simp only [List.foldlM_cons, hs]
      exact bind_congr fun merged => ih hrest merged

/-- The fault of a slot that cannot be merged names the parameter and the slot. -/
lemma eq_of_outcome_error {fault : Fault} (h : slot.outcome specs = .error fault) :
    ∃ s ∈ specs, fault = .unmergeable s.parameter slot.key true := by
  induction specs using List.reverseRecOn with
  | nil => cases h
  | append_singleton specs s ih =>
    by_cases hne : specs = []
    · subst hne
      cases h
    rw [outcome_append_singleton hne] at h
    cases hbefore : slot.outcome specs with
    | error e =>
      rw [hbefore] at h
      obtain ⟨t, ht, hfault⟩ := ih (hbefore.trans h)
      exact ⟨t, List.mem_append_left _ ht, hfault⟩
    | ok held =>
      rw [hbefore] at h
      exact ⟨s, by simp, eq_of_takeIn_error h⟩

end Slot

/-! ## One specification -/

namespace Assignment

/-- The assignment with another value in a slot. -/
def withSlot (a : Assignment) (v : Value) : Slot → Assignment
  | .value => { a with value := v }
  | .metadata f => a.withMetadata v f

/-- The assignment after taking in what a specification has for a slot. -/
def takeSlot (s : Specification) (a : Assignment) (slot : Slot) : Except Fault Assignment :=
  (slot.takeIn (a.slot slot) s).map fun v => a.withSlot v slot

lemma slot_withSlot (a : Assignment) (v : Value) (slot other : Slot) :
    (a.withSlot v slot).slot other = if slot = other then v else a.slot other := by
  cases slot with
  | value => cases other <;> rfl
  | metadata f =>
    cases other with
    | value => cases f <;> rfl
    | metadata g => cases f <;> cases g <;> rfl

lemma parameter_withSlot (a : Assignment) (v : Value) (slot : Slot) :
    (a.withSlot v slot).parameter = a.parameter := by
  cases slot with
  | value => rfl
  | metadata f => cases f <;> rfl

/-- Assignments of one parameter that hold the same in each slot are equal. -/
lemma eq_of_slot_eq {a b : Assignment} (hparameter : a.parameter = b.parameter)
    (hslots : ∀ slot : Slot, a.slot slot = b.slot slot) : a = b := by
  cases a
  cases b
  cases hparameter
  cases hslots .value
  cases hslots (.metadata .controls)
  cases hslots (.metadata .identifiers)
  cases hslots (.metadata .ovalIds)
  rfl

lemma slot_ofSpecification (s : Specification) (slot : Slot) :
    (ofSpecification s).slot slot = (s.offer slot).getD (.mapping []) := by
  cases slot with
  | value => rfl
  | metadata f =>
    have hor : (ofSpecification s).metadata f = orEmpty (s.metadata f) := by cases f <;> rfl
    show (ofSpecification s).metadata f = _
    rw [hor, orEmpty, Specification.offer]
    cases (s.metadata f).isNull <;> rfl

lemma takeMetadata_eq (s : Specification) (a : Assignment) (f : MetadataField) :
    takeMetadata s a f = takeSlot s a (.metadata f) := by
  unfold takeMetadata takeSlot Slot.takeIn Specification.offer
  cases hnull : (s.metadata f).isNull with
  | true =>
    have hsame : a.withMetadata (a.metadata f) f = a := by cases f <;> rfl
    simp [hnull, Except.map, slot, withSlot, hsame]
  | false =>
    simp only [hnull, Bool.false_eq_true, if_false]
    show _ = (mergeField s.parameter f.key (a.metadata f) (s.metadata f)).map _
    cases mergeField s.parameter f.key (a.metadata f) (s.metadata f) <;> rfl

/-- A specification is taken in slot by slot. -/
lemma take_eq (s : Specification) (a : Assignment) :
    a.take s = Slot.all.foldlM (takeSlot s) a := by
  have hvalue : takeSlot s a .value =
      (mergeField s.parameter "value" a.value s.value).map fun v => { a with value := v } := rfl
  unfold take
  simp only [takeMetadata_eq, Slot.all, MetadataField.all, List.map_cons, List.map_nil,
    List.foldlM_cons, List.foldlM_nil, bind_pure, hvalue]
  cases mergeField s.parameter "value" a.value s.value <;> rfl

variable {s : Specification} {a b : Assignment}

lemma slot_of_takeSlots {slots : List Slot} (hslots : slots.Nodup)
    (h : slots.foldlM (takeSlot s) a = .ok b) (slot : Slot) :
    (slot ∈ slots → slot.takeIn (a.slot slot) s = .ok (b.slot slot)) ∧
      (slot ∉ slots → b.slot slot = a.slot slot) := by
  induction slots generalizing a with
  | nil =>
    cases h
    exact ⟨nofun, fun _ => rfl⟩
  | cons first rest ih =>
    obtain ⟨hfirst, hrest⟩ := List.nodup_cons.1 hslots
    rw [List.foldlM_cons] at h
    unfold takeSlot at h
    cases htake : first.takeIn (a.slot first) s with
    | error fault =>
      rw [htake] at h
      cases h
    | ok v =>
      rw [htake] at h
      obtain ⟨hin, hout⟩ := ih hrest h
      rw [slot_withSlot] at hin hout
      by_cases hslot : first = slot
      · subst hslot
        rw [if_pos rfl] at hout
        exact ⟨fun _ => by rw [hout hfirst, htake], fun hnot => absurd List.mem_cons_self hnot⟩
      · rw [if_neg hslot] at hin hout
        refine ⟨fun hmem => hin ?_, fun hnot => hout fun hmem => hnot (List.mem_cons_of_mem _ hmem)⟩
        exact (List.mem_cons.1 hmem).resolve_left fun heq => hslot heq.symm

/-- The fault of slots is that of the first of them that cannot take the specification in. -/
lemma find?_of_takeSlots {slots : List Slot} (hslots : slots.Nodup) {fault : Fault}
    (h : slots.foldlM (takeSlot s) a = .error fault) :
    ∃ slot, slots.find? (fun slot => !(slot.takeIn (a.slot slot) s).isOk) = some slot ∧
      slot.takeIn (a.slot slot) s = .error fault := by
  induction slots generalizing a with
  | nil => cases h
  | cons first rest ih =>
    obtain ⟨hfirst, hrest⟩ := List.nodup_cons.1 hslots
    rw [List.foldlM_cons] at h
    unfold takeSlot at h
    cases htake : first.takeIn (a.slot first) s with
    | error e =>
      rw [htake] at h
      cases h
      exact ⟨first, by simp [htake, Except.isOk, Except.toBool], htake⟩
    | ok v =>
      rw [htake] at h
      obtain ⟨slot, hfind, hslot⟩ := ih hrest h
      -- A slot further on is as it was before.
      have hsame : ∀ other ∈ rest, (a.withSlot v first).slot other = a.slot other := by
        rintro other hmem
        rw [slot_withSlot, if_neg (by rintro rfl; exact hfirst hmem)]
      have hmem : slot ∈ rest := List.mem_of_find?_eq_some hfind
      refine ⟨slot, ?_, by rw [← hsame slot hmem]; exact hslot⟩
      rw [List.find?_cons_of_neg (by simp [htake, Except.isOk, Except.toBool]), ← hfind]
      exact List.find?_congr fun other hother => by rw [hsame other hother]

/-- Taking in a specification takes it in at each slot. -/
lemma slot_of_take (h : a.take s = .ok b) (slot : Slot) :
    slot.takeIn (a.slot slot) s = .ok (b.slot slot) := by
  rw [take_eq] at h
  exact (slot_of_takeSlots (by decide) h slot).1 slot.mem_all

lemma parameter_of_takeSlots {slots : List Slot} (h : slots.foldlM (takeSlot s) a = .ok b) :
    b.parameter = a.parameter := by
  induction slots generalizing a with
  | nil =>
    cases h
    rfl
  | cons first rest ih =>
    rw [List.foldlM_cons] at h
    unfold takeSlot at h
    cases htake : first.takeIn (a.slot first) s with
    | error fault =>
      rw [htake] at h
      cases h
    | ok v =>
      rw [htake] at h
      rw [ih h, parameter_withSlot]

lemma parameter_of_take (h : a.take s = .ok b) : b.parameter = a.parameter := by
  rw [take_eq] at h
  exact parameter_of_takeSlots h

/-- A specification that cannot be taken in ends in the fault of the first slot that cannot take it
in. -/
lemma find?_of_take {fault : Fault} (h : a.take s = .error fault) :
    ∃ slot, Slot.all.find? (fun slot => !(slot.takeIn (a.slot slot) s).isOk) = some slot ∧
      slot.takeIn (a.slot slot) s = .error fault := by
  rw [take_eq] at h
  exact find?_of_takeSlots (by decide) h

end Assignment

/-! ## All specifications -/

namespace Resolution

/-- The specifications of a parameter. -/
def about (parameter : String) (specs : List Specification) : List Specification :=
  specs.filter fun s => s.parameter == parameter

lemma mem_about {p : String} {specs : List Specification} {s : Specification} :
    s ∈ about p specs ↔ s ∈ specs ∧ s.parameter = p := by
  simp [about]

/-- The assignments hold in each slot of each parameter what its specifications come to. -/
structure Reflects (specs : List Specification) (assignments : Assignments) : Prop where
  absent : ∀ p, assignments.get? p = none → about p specs = []
  present : ∀ p a, assignments.get? p = some a → about p specs ≠ [] ∧
    ∀ slot : Slot, slot.outcome (about p specs) = .ok (a.slot slot)

/-- The outcome of a merge is accounted for slot by slot. -/
def Accounts (specs : List Specification) : Except Fault Assignments → Prop
  | .ok assignments => Reflects specs assignments
  | .error fault => ∃ p, ∃ slot : Slot, slot.outcome (about p specs) = .error fault

lemma about_append (p : String) (specs more : List Specification) :
    about p (specs ++ more) = about p specs ++ about p more := List.filter_append ..

lemma about_eq_self {p : String} {specs : List Specification}
    (h : ∀ s ∈ specs, s.parameter = p) : about p specs = specs :=
  List.filter_eq_self.2 fun s hs => beq_iff_eq.2 (h s hs)

lemma about_about (p : String) (specs : List Specification) :
    about p (about p specs) = about p specs := about_eq_self fun _ hs => (mem_about.1 hs).2

lemma about_append_self (specs : List Specification) (s : Specification) :
    about s.parameter (specs ++ [s]) = about s.parameter specs ++ [s] := by
  simp [about, List.filter_append]

lemma about_append_of_ne (specs : List Specification) {s : Specification} {p : String}
    (h : s.parameter ≠ p) : about p (specs ++ [s]) = about p specs := by
  simp [about, List.filter_append, h]

/-- The fault of a parameter's slot names the two. -/
lemma eq_of_outcome_about_error {p : String} {specs : List Specification} {slot : Slot}
    {fault : Fault} (h : slot.outcome (about p specs) = .error fault) :
    fault = .unmergeable p slot.key true := by
  obtain ⟨s, hs, hfault⟩ := Slot.eq_of_outcome_error h
  rw [hfault, (mem_about.1 hs).2]

lemma assignAll_eq (assignments : Assignments) (specs : List Specification) :
    assignAll assignments specs = specs.foldlM assign assignments := by
  induction specs generalizing assignments with
  | nil => rfl
  | cons s rest ih =>
    rw [assignAll, List.foldlM_cons]
    simp only [ih]

variable {specs : List Specification} {assignments : Assignments} {s : Specification}

/-- The assignment that is put for a parameter has to hold what its specifications come to. -/
lemma Reflects.put (h : Reflects specs assignments) {a : Assignment}
    (ha : ∀ slot : Slot, slot.outcome (about s.parameter (specs ++ [s])) = .ok (a.slot slot)) :
    Reflects (specs ++ [s]) (assignments.put s.parameter a) := by
  constructor
  · intro p hp
    rw [Table.get?_put] at hp
    split at hp
    · cases hp
    · rename_i hne
      rw [about_append_of_ne specs fun heq => hne (beq_iff_eq.2 heq)]
      exact h.absent p hp
  · intro p b hp
    rw [Table.get?_put] at hp
    split at hp
    · rename_i heq
      obtain rfl := beq_iff_eq.1 heq
      cases hp
      refine ⟨?_, ha⟩
      rw [about_append_self]
      exact List.append_ne_nil_of_right_ne_nil _ (by simp)
    · rename_i hne
      rw [about_append_of_ne specs fun heq => hne (beq_iff_eq.2 heq)]
      exact h.present p b hp

/-- One more specification is accounted for. -/
lemma Reflects.assign (h : Reflects specs assignments) (s : Specification) :
    Accounts (specs ++ [s]) (assign assignments s) := by
  unfold Resolution.assign
  cases hget : assignments.get? s.parameter with
  | none =>
    show Reflects _ (assignments.put s.parameter (.ofSpecification s))
    refine h.put fun slot => ?_
    rw [about_append_self, h.absent _ hget, Assignment.slot_ofSpecification]
    rfl
  | some a =>
    obtain ⟨hne, hslots⟩ := h.present _ a hget
    have hnext : ∀ slot : Slot, slot.outcome (about s.parameter (specs ++ [s])) =
        slot.takeIn (a.slot slot) s := by
      intro slot
      rw [about_append_self, Slot.outcome_append_singleton hne, hslots slot]
      rfl
    show Accounts _ ((a.take s).map fun a => assignments.put s.parameter a)
    cases htake : a.take s with
    | ok b =>
      refine h.put fun slot => ?_
      rw [hnext, Assignment.slot_of_take htake]
    | error fault =>
      obtain ⟨slot, -, hslot⟩ := Assignment.find?_of_take htake
      exact ⟨s.parameter, slot, (hnext slot).trans hslot⟩

/-- What the specifications of all parameters come to is accounted for slot by slot. -/
theorem accounts_assignAll (specs : List Specification) : Accounts specs (assignAll [] specs) := by
  rw [assignAll_eq]
  induction specs using List.reverseRecOn with
  | nil => exact ⟨fun _ _ => rfl, nofun⟩
  | append_singleton specs s ih =>
    rw [List.foldlM_append]
    simp only [List.foldlM_cons, List.foldlM_nil, bind_pure]
    cases hbefore : specs.foldlM Resolution.assign [] with
    | ok assignments =>
      rw [hbefore] at ih
      exact Reflects.assign ih s
    | error fault =>
      rw [hbefore] at ih
      obtain ⟨p, slot, hslot⟩ := ih
      refine ⟨p, slot, ?_⟩
      unfold about at hslot ⊢
      rw [List.filter_append]
      exact Slot.outcome_append_of_error hslot _

lemma outcome_noteSeveral (names : List String) : (noteSeveral names).outcome = .ok () := by
  induction names with
  | nil => rfl
  | cons name rest ih =>
    unfold noteSeveral
    rw [Told.outcome_bind]
    exact ih

lemma outcome_merge (specs : List Specification) :
    (merge specs).outcome = assignAll [] specs := by
  unfold merge
  rw [Told.outcome_bind, outcome_noteSeveral]
  rfl

/-- Resolving profiles is merging the specifications that they reach. -/
lemma outcome_resolve {profiles : Entries} {index : CheckIndex} {active : List Value}
    (hspecs : (collect profiles index active).outcome = .ok specs) :
    (resolve profiles index active).outcome = assignAll [] specs := by
  unfold resolve
  rw [Told.outcome_bind, hspecs]
  exact outcome_merge specs

/-- What resolving profiles comes to is accounted for slot by slot, with the specifications that
the profiles reach. -/
theorem resolve_accounts {profiles : Entries} {index : CheckIndex} {active : List Value}
    (hspecs : (collect profiles index active).outcome = .ok specs) :
    Accounts specs (resolve profiles index active).outcome := by
  rw [outcome_resolve hspecs]
  exact accounts_assignAll specs

variable (profiles : Entries) (index : CheckIndex) (active : List Value)

/-- The specifications that the active profiles reach cannot be merged in a slot of a parameter. -/
def CannotMerge (p : String) (slot : Slot) : Prop :=
  ∃ specs, (collect profiles index active).outcome = .ok specs ∧
    slot.outcome (about p specs) = .error (.unmergeable p slot.key true)

/-- What resolving makes of a slot of a parameter: the assignment of the parameter holds it, or it
is the fault that resolving ends with.  The only other way for resolving to end is with the fault of
another slot that cannot be merged. -/
def ComesTo (p : String) (slot : Slot) (outcome : Except Fault Value) : Prop :=
  match (resolve profiles index active).outcome with
  | .ok assignments => ∃ a, assignments.get? p = some a ∧ outcome = .ok (a.slot slot)
  | .error fault => outcome = .error fault ∨
      ∃ q other, (q ≠ p ∨ other ≠ slot) ∧ fault = .unmergeable q other.key true ∧
        CannotMerge profiles index active q other

variable {profiles index active}

/-- Resolving makes of each slot what the specifications of its parameter come to. -/
theorem comesTo_outcome (hspecs : (collect profiles index active).outcome = .ok specs)
    {p : String} (hp : about p specs ≠ []) (slot : Slot) :
    ComesTo profiles index active p slot (slot.outcome (about p specs)) := by
  have haccounts := resolve_accounts hspecs
  unfold ComesTo
  cases hresolve : (resolve profiles index active).outcome with
  | ok assignments =>
    rw [hresolve] at haccounts
    have hreflects : Reflects specs assignments := haccounts
    cases hget : assignments.get? p with
    | none => exact absurd (hreflects.absent p hget) hp
    | some a => exact ⟨a, hget, (hreflects.present p a hget).2 slot⟩
  | error fault =>
    rw [hresolve] at haccounts
    obtain ⟨q, other, hother⟩ := haccounts
    by_cases hsame : q = p ∧ other = slot
    · obtain ⟨rfl, rfl⟩ := hsame
      exact Or.inl hother
    · have hfault := eq_of_outcome_about_error hother
      rw [hfault] at hother
      exact Or.inr ⟨q, other, not_and_or.1 hsame, hfault, specs, hspecs, hother⟩

end Resolution

end ProfileCompiler
