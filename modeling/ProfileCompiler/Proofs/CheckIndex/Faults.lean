import ProfileCompiler.Proofs.CheckIndex.Inversion
import ProfileCompiler.Proofs.Outcome
import ProfileCompiler.Proofs.Value.Written

/-!
# When the index cannot be built

Two kinds of checks end the building of the index in a fault (`CheckIndex.Faulty`): a check that
names a parameter and gives it no value, and a registered check that lists a configuration element
whose controls can be neither gone through nor passed over.  All other entries are filed or passed
over, whatever they hold.

The main result is `CheckIndex.outcome_build_eq_error_iff`: building ends in the fault of the first
such check in the order of the catalog, and in no other way.  The fault of a check without a value
names the check and the parameter; a name that cannot be written makes it another fault
(`CheckIndex.Tells`).
-/

namespace ProfileCompiler

namespace CheckIndex

/-! ## Faulty checks -/

/-- A check of one of the types that set a parameter, with a mapping of settings that has a
parameter and no value. -/
def LacksValue (body parameter : Value) : Prop :=
  ∃ (entries settings : Entries) (checkType : String), body = .mapping entries ∧
    entries.get? (.text "type") = some (.text checkType) ∧
    Specification.isParameterType checkType = true ∧
    entries.get? (.text "settings") = some (.mapping settings) ∧
    settings.get? (.text "parameter") = some parameter ∧
    settings.get? (.text "value") = none

/-- A configuration element with controls that are neither empty nor a mapping. -/
def HasOddControls (element : Value) : Prop :=
  ∃ (entries : Entries) (controls : Value), element = .mapping entries ∧
    entries.get? (.text "controls") = some controls ∧
    controls.truthy = true ∧ controls.isMapping = false

/-- An item of a list names a configuration element of the catalog with such controls. -/
def NamesOdd (ces : Entries) (item : Value) : Prop :=
  ∃ s element, item.text? = some s ∧ ces.get? (.text s) = some element ∧ HasOddControls element

/-- A registered check that lists a configuration element with such controls. -/
def ListsOdd (ces : Entries) (name : Scalar) (body : Value) : Prop :=
  ∃ spec items, Specification.registered? name body = some spec ∧ spec.ces = some items ∧
    ∃ item ∈ items, NamesOdd ces item

/-- The faults that tell that a check gives a parameter no value: one that names both, or else that
a name holds an integer with too many digits. -/
inductive Tells (name : Scalar) (parameter : Value) : Fault → Prop
  | names {check shown : String} (hname : name.plain? = some check)
    (hparameter : parameter.plain? = some shown) :
    Tells name parameter (.missingValue check shown "unknown")
  | overlong (h : name.IsOverlong ∨ parameter.HoldsOverlong) : Tells name parameter .overlongNumber

/-- The checks that end the building of the index, and the faults in which they end it. -/
inductive Faulty (ces : Entries) (name : Scalar) (body : Value) : Fault → Prop
  | lacksValue {parameter : Value} {fault : Fault} (h : LacksValue body parameter)
    (htells : Tells name parameter fault) : Faulty ces name body fault
  | listsOdd (h : ListsOdd ces name body) : Faulty ces name body .noMembers

/-! ## Configuration elements -/

variable {ces : Entries} {name : Scalar} {body : Value} {fault : Fault}

lemma hasOddControls_mapping {entries : Entries} :
    HasOddControls (.mapping entries) ↔
      ∃ controls, entries.get? (.text "controls") = some controls ∧
        controls.truthy = true ∧ controls.isMapping = false := by
  constructor
  · rintro ⟨_, controls, heq, hodd⟩
    cases heq
    exact ⟨controls, hodd⟩
  · rintro ⟨controls, hodd⟩
    exact ⟨entries, controls, rfl, hodd⟩

lemma inherited_eq_error_iff {element : Value} :
    inherited element = .error fault ↔ HasOddControls element ∧ fault = .noMembers := by
  cases element with
  | scalar s => simp [inherited, HasOddControls]
  | list items => simp [inherited, HasOddControls]
  | mapping entries =>
    rw [hasOddControls_mapping, inherited]
    cases hcontrols : Table.get? (.text "controls") entries with
    | none => simp [Value.null, Value.truthy, Scalar.truthy]
    | some controls =>
      simp only [Option.getD_some, Option.some.injEq, exists_eq_left']
      cases controls with
      | mapping controls => simp [Value.isMapping]
      | scalar s =>
        cases htruthy : (Value.scalar s).truthy <;> simp [Value.isMapping, htruthy, eq_comm]
      | list items =>
        cases htruthy : (Value.list items).truthy <;> simp [Value.isMapping, htruthy, eq_comm]

/-- An element with odd controls is not null. -/
lemma element?_eq_some_of_namesOdd {item : Value} (h : NamesOdd ces item) :
    ∃ element, element? ces item = some element ∧ HasOddControls element := by
  obtain ⟨s, element, htext, hget, hodd⟩ := h
  refine ⟨element, ?_, hodd⟩
  obtain ⟨entries, _, rfl, -⟩ := hodd
  simp [element?, htext, hget, Value.isNull]

lemma namesOdd_iff {item element : Value} (h : element? ces item = some element) :
    NamesOdd ces item ↔ HasOddControls element := by
  constructor
  · intro hnames
    obtain ⟨other, hother, hodd⟩ := element?_eq_some_of_namesOdd hnames
    rw [Option.some.inj (h.symm.trans hother)]
    exact hodd
  · intro hodd
    unfold element? at h
    obtain ⟨s, htext, hget⟩ := Option.bind_eq_some_iff.1 (Option.filter_eq_some_iff.1 h).1
    exact ⟨s, element, htext, hget, hodd⟩

/-- The elements of a list have places unless one of them has odd controls. -/
lemma elementPlaces_eq_error_iff {items : List Value} :
    elementPlaces ces items = .error fault ↔
      (∃ item ∈ items, NamesOdd ces item) ∧ fault = .noMembers := by
  induction items with
  | nil => simp [elementPlaces]
  | cons item rest ih =>
    cases helement : element? ces item with
    | none =>
      have hnot : ¬ NamesOdd ces item := by
        intro hnames
        obtain ⟨element, hsome, -⟩ := element?_eq_some_of_namesOdd hnames
        cases helement.symm.trans hsome
      rw [elementPlaces_cons_of_none helement, ih]
      simp [hnot]
    | some element =>
      obtain ⟨s, -, hplaces⟩ := elementPlaces_cons_of_some helement
      rw [hplaces, Except.bind_eq_error_iff, inherited_eq_error_iff, ← namesOdd_iff helement]
      constructor
      · rintro (⟨hodd, rfl⟩ | ⟨controls, -, hmore⟩)
        · exact ⟨⟨item, List.mem_cons_self, hodd⟩, rfl⟩
        · obtain ⟨⟨other, hmem, hodd⟩, rfl⟩ := ih.1 (Except.bind_ok_eq_error_iff.1 hmore)
          exact ⟨⟨other, List.mem_cons_of_mem _ hmem, hodd⟩, rfl⟩
      · rintro ⟨⟨other, hmem, hodd⟩, rfl⟩
        by_cases hfirst : NamesOdd ces item
        · exact Or.inl ⟨hfirst, rfl⟩
        · -- The first element hands on its controls, so a later one ends the search.
          have hrest : ∃ other ∈ rest, NamesOdd ces other := by
            rcases List.mem_cons.1 hmem with rfl | hmem
            · exact absurd hodd hfirst
            · exact ⟨other, hmem, hodd⟩
          cases hcontrols : inherited element with
          | error e =>
            exact absurd ((namesOdd_iff helement).2 (inherited_eq_error_iff.1 hcontrols).1) hfirst
          | ok controls =>
            exact Or.inr ⟨controls, rfl, Except.bind_ok_eq_error_iff.2 (ih.2 ⟨hrest, rfl⟩)⟩

lemma places_eq_error_iff {spec : Specification} :
    places ces spec = .error fault ↔
      (∃ items, spec.ces = some items ∧ ∃ item ∈ items, NamesOdd ces item) ∧
        fault = .noMembers := by
  unfold places
  rw [Except.bind_ok_eq_error_iff, elementPlaces_eq_error_iff]
  cases spec.ces <;> simp

/-! ## Entries of the catalog -/

/-- A type that sets a parameter is a text that stands there. -/
lemma text_of_any_isParameterType {found : Option Value}
    (h : ¬ (!(found.getD .null).text?.any Specification.isParameterType) = true) :
    ∃ checkType, found = some (.text checkType) ∧
      Specification.isParameterType checkType = true := by
  obtain ⟨checkType, htext, hpuppet⟩ : ∃ checkType, (found.getD .null).text? = some checkType ∧
      Specification.isParameterType checkType = true := by
    simpa [Option.any_eq_true] using h
  refine ⟨checkType, ?_, hpuppet⟩
  cases found with
  | none => cases htext
  | some v =>
    cases v with
    | list items => cases htext
    | mapping entries => cases htext
    | scalar k =>
      cases k <;> cases htext
      rfl

/-- There is one fault that tells of a check without a value. -/
lemma tells_iff {parameter : Value} :
    Tells name parameter fault ↔ fault = valueMissing name parameter := by
  unfold valueMissing
  constructor
  · intro h
    cases h with
    | names hname hparameter => rw [hname, hparameter]
    | overlong h =>
      rw [← Scalar.plain?_eq_none_iff, ← Value.plain?_eq_none_iff] at h
      rcases h with h | h
      · rw [h]
      · rw [h]
        cases name.plain? <;> rfl
  · rintro rfl
    cases hname : name.plain? with
    | none => exact .overlong (.inl (Scalar.plain?_eq_none_iff.1 hname))
    | some check =>
      cases hparameter : parameter.plain? with
      | none => exact .overlong (.inr (Value.plain?_eq_none_iff.1 hparameter))
      | some shown => exact .names hname hparameter

/-- Reading an entry ends in a fault only if it is a check without a value. -/
lemma classify_eq_error_iff :
    classify name body = .error fault ↔
      ∃ parameter, LacksValue body parameter ∧ Tells name parameter fault := by
  simp only [tells_iff]
  constructor
  · intro h
    cases body with
    | scalar s => cases h
    | list items => cases h
    | mapping entries =>
      -- Of the branches only the last one ends in a fault, and there is no value in it.
      unfold classify at h
      simp only [any_parameterTypes] at h
      split at h
      · cases h
      rename_i htype
      split at h
      · rename_i settings hsettings
        split at h
        · cases h
        rename_i parameter hparameter
        split at h
        · cases h
        rename_i hvalue
        cases h
        have hnone : Table.get? (.text "value") settings = none := by
          simpa [Table.has] using hvalue
        obtain ⟨checkType, hcheckType, hpuppet⟩ := text_of_any_isParameterType htype
        exact ⟨parameter, ⟨entries, settings, checkType, rfl, hcheckType, hpuppet, hsettings,
          hparameter, hnone⟩, rfl⟩
      · cases h
  · rintro ⟨parameter, ⟨entries, settings, checkType, rfl, htype, hpuppet, hsettings, hparameter,
      hvalue⟩, rfl⟩
    unfold classify
    simp [any_parameterTypes, htype, Value.text, Value.text?, hpuppet, hsettings, hparameter,
      Table.has, hvalue]

lemma registered?_of_lacksValue {parameter : Value} (h : LacksValue body parameter) :
    Specification.registered? name body = none := by
  obtain ⟨entries, settings, checkType, rfl, -, -, hsettings, -, hvalue⟩ := h
  cases hregistered : Specification.registered? name (.mapping entries) with
  | none => rfl
  | some spec =>
    unfold Specification.registered? at hregistered
    simp [Value.entries?, hsettings, hvalue] at hregistered

/-- One more catalog entry ends in a fault if it is faulty, whatever is in the index. -/
lemma outcome_add_eq_error_iff (index : CheckIndex) :
    (add ces index name body).outcome = .error fault ↔ Faulty ces name body fault := by
  unfold add
  rw [Told.outcome_bind, Told.outcome_of, Except.bind_eq_error_iff, classify_eq_error_iff]
  constructor
  · rintro (⟨parameter, hlacks, htells⟩ | ⟨entry, hclass, h⟩)
    · exact .lacksValue hlacks htells
    · have hregistered := toOption_of_classify hclass
      cases entry with
      | error reason => cases h
      | ok spec =>
        rw [Told.outcome_bind, Told.outcome_of] at h
        obtain ⟨⟨items, hitems, hodd⟩, rfl⟩ :=
          places_eq_error_iff.1 (Except.bind_ok_eq_error_iff.1 h)
        exact .listsOdd ⟨spec, items, hregistered.symm, hitems, hodd⟩
  · intro h
    cases h with
    | lacksValue hlacks htells => exact Or.inl ⟨_, hlacks, htells⟩
    | listsOdd hlists =>
      -- An entry that is registered does not lack a value, so adding it gets to its places.
      obtain ⟨spec, items, hregistered, hitems, hodd⟩ := hlists
      cases hclass : classify name body with
      | error e =>
        obtain ⟨parameter, hlacks, -⟩ := classify_eq_error_iff.1 hclass
        rw [registered?_of_lacksValue hlacks] at hregistered
        cases hregistered
      | ok entry =>
        refine Or.inr ⟨entry, rfl, ?_⟩
        have hentry := (toOption_of_classify hclass).trans hregistered
        cases entry with
        | error reason => cases hentry
        | ok other =>
          cases hentry
          rw [Told.outcome_bind, Told.outcome_of]
          exact Except.bind_ok_eq_error_iff.2
            (places_eq_error_iff.2 ⟨⟨items, hitems, hodd⟩, rfl⟩)

/-- Several entries end in the fault of the first faulty one. -/
lemma outcome_addAll_eq_error_iff (ces : Entries) (index : CheckIndex) (entries : Entries)
    (fault : Fault) :
    (addAll ces index entries).outcome = .error fault ↔
      ∃ before name body after, entries = before ++ (name, body) :: after ∧
        (∀ e ∈ before, ∀ f, ¬ Faulty ces e.1 e.2 f) ∧ Faulty ces name body fault := by
  induction entries generalizing index with
  | nil =>
    refine iff_of_false nofun ?_
    rintro ⟨before, name, body, after, heq, -⟩
    simp at heq
  | cons e rest ih =>
    obtain ⟨name, body⟩ := e
    unfold addAll
    rw [Told.outcome_bind, Except.bind_eq_error_iff, outcome_add_eq_error_iff]
    simp only [ih]
    constructor
    · rintro (hfirst | ⟨next, hadd, before, other, body', after, rfl, hbefore, hfaulty⟩)
      · exact ⟨[], name, body, rest, rfl, nofun, hfirst⟩
      · refine ⟨(name, body) :: before, other, body', after, rfl, ?_, hfaulty⟩
        refine List.forall_mem_cons.2 ⟨fun f hf => ?_, hbefore⟩
        rw [(outcome_add_eq_error_iff index).2 hf] at hadd
        cases hadd
    · rintro ⟨before, other, body', after, heq, hbefore, hfaulty⟩
      cases before with
      | nil =>
        cases heq
        exact Or.inl hfaulty
      | cons e before =>
        cases heq
        obtain ⟨hnot, hrest⟩ := List.forall_mem_cons.1 hbefore
        cases hadd : (add ces index name body).outcome with
        | error f => exact absurd ((outcome_add_eq_error_iff index).1 hadd) (hnot f)
        | ok next => exact Or.inr ⟨next, rfl, before, other, body', after, rfl, hrest, hfaulty⟩

/-- Building the index ends in a fault exactly if some check is faulty, and the fault is that of the
first such check in the order of the catalog.  If no registered check lists an element with odd
controls, it is the fault that tells of the first check that lacks a value. -/
theorem outcome_build_eq_error_iff (checks ces : Entries) (fault : Fault) :
    ((build checks ces).outcome = .error fault ↔
      ∃ before name body after, checks = before ++ (name, body) :: after ∧
        (∀ e ∈ before, ∀ f, ¬ Faulty ces e.1 e.2 f) ∧ Faulty ces name body fault) ∧
    ((∀ e ∈ checks, ¬ ListsOdd ces e.1 e.2) →
      ((build checks ces).outcome = .error fault ↔
        ∃ before name body after parameter, checks = before ++ (name, body) :: after ∧
          (∀ e ∈ before, ∀ p, ¬ LacksValue e.2 p) ∧ LacksValue body parameter ∧
          Tells name parameter fault)) := by
  have hbuild := outcome_addAll_eq_error_iff ces empty checks fault
  refine ⟨hbuild, fun hlists => hbuild.trans ?_⟩
  constructor
  · rintro ⟨before, name, body, after, heq, hbefore, hfaulty⟩
    have hmem : (name, body) ∈ checks := by simp [heq]
    cases hfaulty with
    | lacksValue hlacks htells =>
      exact ⟨before, name, body, after, _, heq,
        fun e he p hp => hbefore e he _ (.lacksValue hp (tells_iff.2 rfl)), hlacks, htells⟩
    | listsOdd hodd => exact absurd hodd (hlists _ hmem)
  · rintro ⟨before, name, body, after, parameter, heq, hbefore, hlacks, htells⟩
    refine ⟨before, name, body, after, heq, fun e he f hf => ?_, .lacksValue hlacks htells⟩
    cases hf with
    | lacksValue hp _ => exact hbefore e he _ hp
    | listsOdd hodd => exact hlists e (by simp [heq, he]) hodd

/-- A configuration element whose controls are a list. -/
def oddElement : Entries := [(.text "e", .ofTexts [("controls", .list [.text "a"])])]

/-- A check that lists the element, and one without a value behind it. -/
def listsThenLacks : Entries :=
  [(.text "lists", checkOf .null (.list [.text "e"])),
    (.text "lacks", .ofTexts [("type", .text "puppet"),
      ("settings", .ofTexts [("parameter", .text "p")])])]

/-- The check that lists the element is registered and has its value, and it ends the building.  If
the controls of the element are a mapping, the other check ends it. -/
theorem outcome_build_eq_error_iff_odd :
    (build listsThenLacks oddElement).outcome = .error .noMembers ∧
      (∀ parameter, ¬ LacksValue (checkOf .null (.list [.text "e"])) parameter) ∧
      (∀ e ∈ listsThenLacks, ¬ ListsOdd elements e.1 e.2) ∧
      (build listsThenLacks elements).outcome = .error (.missingValue "lacks" "p" "unknown") := by
  have hregistered : (Specification.registered? (.text "lists")
      (checkOf .null (.list [.text "e"]))).isSome = true := rfl
  have hlacks : ∀ parameter, ¬ LacksValue (checkOf .null (.list [.text "e"])) parameter := by
    intro parameter h
    rw [registered?_of_lacksValue h] at hregistered
    cases hregistered
  have hodd : Faulty oddElement (.text "lists") (checkOf .null (.list [.text "e"])) .noMembers :=
    .listsOdd ⟨_, _, rfl, rfl, .text "e", List.mem_cons_self, "e", _, rfl, rfl,
      _, _, rfl, rfl, rfl, rfl⟩
  have helements : ∀ e ∈ listsThenLacks, ¬ ListsOdd elements e.1 e.2 := by
    refine List.forall_mem_cons.2 ⟨?_, List.forall_mem_singleton.2 ?_⟩
    · rintro ⟨spec, items, hspec, hitems, hodd⟩
      have hplaces := places_eq_error_iff.2 ⟨⟨items, hitems, hodd⟩, rfl⟩
      cases hspec
      cases hplaces
    · rintro ⟨spec, items, hspec, -⟩
      cases hspec
  refine ⟨?_, hlacks, helements, ?_⟩
  · exact (outcome_build_eq_error_iff listsThenLacks oddElement _).1.2
      ⟨[], _, _, _, rfl, nofun, hodd⟩
  · refine ((outcome_build_eq_error_iff listsThenLacks elements _).2 helements).2
      ⟨[_], .text "lacks", _, [], .text "p", rfl, ?_,
        ⟨_, _, "puppet", rfl, rfl, by decide, rfl, rfl, rfl⟩, .names rfl rfl⟩
    exact List.forall_mem_singleton.2 hlacks

end CheckIndex

end ProfileCompiler
