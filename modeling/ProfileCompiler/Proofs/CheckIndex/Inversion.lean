import ProfileCompiler.Proofs.Catalog.Survival
import ProfileCompiler.Proofs.CheckIndex.Registered
import ProfileCompiler.Proofs.CheckIndex.WellFormed

/-!
# The index as the inversion of the catalogs

A registered check is filed under its name, under the controls that it switches on, under the
catalogued configuration elements that it lists, and under the controls that these switch on.  How
often its specification stands under a name is a matter of the check and of the configuration
elements alone (`CheckIndex.copies`).  So what the index has under a name are the specifications
of the registered checks, in the order of the catalog, each with its copies side by side
(`CheckIndex.find_addAll`, `CheckIndex.inverts_of_build`).
-/

namespace ProfileCompiler

namespace CheckIndex

/-! ## Conditions on checks and configuration elements -/

/-- The specifications of the registered checks, in the order of the catalog. -/
def registered (checks : Entries) : List Specification :=
  checks.filterMap fun e => Specification.registered? e.1 e.2

lemma registered_cons (e : Scalar × Value) (rest : Entries) :
    registered (e :: rest) =
      (Specification.registered? e.1 e.2).toList ++ registered rest := by
  unfold registered
  rw [List.filterMap_cons]
  cases Specification.registered? e.1 e.2 <;> rfl

/-- A name has a value that is not false, zero, null or empty. -/
def isOn (entries : Entries) (name : Scalar) : Bool := (entries.get? name).any Value.truthy

/-- The catalogued configuration element that an item of a check's list names, if it is a text.
Null is no configuration element. -/
def element? (ces : Entries) (item : Value) : Option Value :=
  (item.text?.bind fun s => ces.get? (.text s)).filter fun element => !element.isNull

/-- No entry of a loaded catalog is null, so every one counts. -/
lemma element?_of_load {host : Host} {documents : List (String × Value)} {c : Catalog}
    {count : Nat} (h : (Catalog.load host documents .empty none).1.outcome = .ok (c, count))
    (item : Value) : element? c.ces item = item.text?.bind fun s => c.ces.get? (.text s) := by
  unfold element?
  cases hnamed : item.text?.bind fun s => c.ces.get? (.text s) with
  | none => rfl
  | some element =>
    obtain ⟨s, -, hget⟩ := Option.bind_eq_some_iff.1 hnamed
    have hentry : c.entry .ces (.text s) = some element := hget
    rw [Option.filter_some, Catalog.isNull_entry_of_load h hentry]
    rfl

/-- An item names the given configuration element, and this is catalogued. -/
def namesElement (ces : Entries) (name : Scalar) (item : Value) : Bool :=
  (element? ces item).isSome && item.text?.any fun s => Scalar.text s == name

/-- The controls of a configuration element. -/
def controlsOf (element : Value) : Entries :=
  (((element.entries?.getD []).get? (.text "controls")).getD .null).entries?.getD []

/-- An item names a catalogued configuration element that switches the control on. -/
def inheritsControl (ces : Entries) (control : Scalar) (item : Value) : Bool :=
  (element? ces item).any fun element => isOn (controlsOf element) control

/-- How often a specification stands under a name. -/
def copies (ces : Entries) (spec : Specification) (name : Scalar) : ReferenceKind → Nat
  | .checks => if Scalar.text spec.name == name then 1 else 0
  | .controls => (if isOn (spec.controls.getD []) name then 1 else 0) +
      (spec.ces.getD []).countP (inheritsControl ces name)
  | .ces => (spec.ces.getD []).countP (namesElement ces name)

/-! ## Counting places -/

/-- The place is under the given name. -/
def isAt (kind : ReferenceKind) (name : Scalar) (place : ReferenceKind × Scalar) : Bool :=
  decide (place.1 = kind) && place.2 == name

/-- What is switched on in a mapping is there once. -/
lemma countP_enabled {entries : Entries} (h : Table.Distinct entries) (name : Scalar) :
    (enabled entries).countP (· == name) = if isOn entries name then 1 else 0 := by
  unfold enabled isOn
  induction entries with
  | nil => rfl
  | cons e rest ih =>
    have hrest := ih (Table.distinct_cons.1 h).2
    rw [List.filter_cons, Table.get?_cons]
    by_cases hname : (e.1 == name) = true
    · rw [Table.get?_eq_none_of_distinct h hname] at hrest
      rw [if_pos hname]
      by_cases htruthy : e.2.truthy = true
      · simp [htruthy, hname, hrest]
      · simp [htruthy, hrest]
    · rw [if_neg hname, ← hrest]
      by_cases htruthy : e.2.truthy = true
      · simp [htruthy, hname]
      · simp [htruthy]

/-- The controls that a mapping switches on are places for controls. -/
lemma countP_controls {entries : Entries} (h : Table.Distinct entries) (kind : ReferenceKind)
    (name : Scalar) :
    ((enabled entries).map fun c => (ReferenceKind.controls, c)).countP (isAt kind name) =
      if kind = .controls ∧ isOn entries name = true then 1 else 0 := by
  rw [List.countP_map]
  by_cases hkind : kind = .controls
  · subst hkind
    have hat : isAt .controls name ∘ (fun c => (ReferenceKind.controls, c)) = (· == name) := by
      funext c
      simp [isAt]
    rw [hat, countP_enabled h]
    simp
  · rw [if_neg fun hboth => hkind hboth.1, List.countP_eq_zero]
    intro c _ hat
    exact hkind (by simpa [isAt, eq_comm] using (Bool.and_eq_true_iff.1 hat).1)

/-- The places that a configuration element hands on are those for its controls. -/
lemma inherited_eq_ok {element : Value} {found : List (ReferenceKind × Scalar)}
    (h : inherited element = .ok found) :
    found = (enabled (controlsOf element)).map fun c => (.controls, c) := by
  unfold inherited at h
  unfold controlsOf
  cases element with
  | scalar s =>
    cases h
    rfl
  | list items =>
    cases h
    rfl
  | mapping entries =>
    -- Controls that are no mapping are none if they are falsy, and a fault otherwise.
    simp only [Value.entries?, Option.getD_some] at h ⊢
    generalize (Table.get? (Scalar.text "controls") entries).getD .null = controls at h ⊢
    cases controls with
    | mapping controls =>
      cases h
      rfl
    | scalar s =>
      simp only at h
      split at h <;> cases h
      rfl
    | list items =>
      simp only at h
      split at h <;> cases h
      rfl

lemma distinct_controlsOf {element : Value} (h : element.WellFormed) :
    Table.Distinct (controlsOf element) := by
  have hentries : (Value.mapping (element.entries?.getD [])).WellFormed := by
    cases element with
    | scalar s => exact Value.wellFormed_empty
    | list items => exact Value.wellFormed_empty
    | mapping entries => exact h
  have hcontrols := Specification.wellFormed_getD_get? hentries (.text "controls")
  unfold controlsOf
  generalize ((element.entries?.getD []).get? (.text "controls")).getD .null = controls
    at hcontrols ⊢
  cases controls with
  | scalar s => exact Table.distinct_nil
  | list items => exact Table.distinct_nil
  | mapping controls => exact (Value.wellFormed_mapping.1 hcontrols).1

/-- What the items of a list count for under a name: the configuration elements that they name and
the controls of these. -/
def elementCopies (ces : Entries) (items : List Value) (name : Scalar) : ReferenceKind → Nat
  | .checks => 0
  | .controls => items.countP (inheritsControl ces name)
  | .ces => items.countP (namesElement ces name)

variable {ces : Entries} {item : Value} {rest : List Value}

/-- An item that names no catalogued configuration element is passed over. -/
lemma elementPlaces_cons_of_none (h : element? ces item = none) :
    elementPlaces ces (item :: rest) = elementPlaces ces rest := by
  unfold element? at h
  rw [elementPlaces]
  cases htext : item.text? with
  | none => rfl
  | some s =>
    rw [htext, Option.bind_some] at h
    cases hget : ces.get? (.text s) with
    | none => simp only [hget]
    | some element =>
      rw [hget, Option.filter_some] at h
      have hnull : element.isNull = true := by
        by_contra hnot
        simp [hnot] at h
      simp only [hget, hnull, if_true]

/-- An item that names a catalogued configuration element is filed under it, and under the controls
that it hands on. -/
lemma elementPlaces_cons_of_some {element : Value} (h : element? ces item = some element) :
    ∃ s, item.text? = some s ∧
      elementPlaces ces (item :: rest) = inherited element >>= fun controls =>
        elementPlaces ces rest >>= fun more => .ok ((.ces, .text s) :: (controls ++ more)) := by
  unfold element? at h
  obtain ⟨hget, hnull⟩ := Option.filter_eq_some_iff.1 h
  obtain ⟨s, htext, hget⟩ := Option.bind_eq_some_iff.1 hget
  rw [Bool.not_eq_true'] at hnull
  refine ⟨s, htext, ?_⟩
  rw [elementPlaces]
  simp only [htext, hget, hnull]
  rfl

lemma of_elementPlaces_cons {element : Value} (helement : element? ces item = some element)
    {found : List (ReferenceKind × Scalar)} (h : elementPlaces ces (item :: rest) = .ok found) :
    ∃ s controls more, item.text? = some s ∧ inherited element = .ok controls ∧
      elementPlaces ces rest = .ok more ∧ found = (.ces, .text s) :: (controls ++ more) := by
  obtain ⟨s, htext, hplaces⟩ := elementPlaces_cons_of_some helement
  rw [hplaces] at h
  cases hcontrols : inherited element with
  | error fault =>
    rw [hcontrols] at h
    cases h
  | ok controls =>
    rw [hcontrols] at h
    cases hmore : elementPlaces ces rest with
    | error fault =>
      rw [hmore] at h
      cases h
    | ok more =>
      rw [hmore] at h
      cases h
      exact ⟨s, controls, more, htext, rfl, rfl, rfl⟩

lemma wellFormed_element? (hces : (Value.mapping ces).WellFormed) {element : Value}
    (helement : element? ces item = some element) : element.WellFormed := by
  unfold element? at helement
  obtain ⟨s, -, hget⟩ := Option.bind_eq_some_iff.1 (Option.filter_eq_some_iff.1 helement).1
  exact Value.wellFormed_of_get? hces hget

lemma countP_elementPlaces (hces : (Value.mapping ces).WellFormed) {items : List Value}
    {found : List (ReferenceKind × Scalar)} (h : elementPlaces ces items = .ok found)
    (kind : ReferenceKind) (name : Scalar) :
    found.countP (isAt kind name) = elementCopies ces items name kind := by
  induction items generalizing found with
  | nil =>
    cases h
    cases kind <;> rfl
  | cons item rest ih =>
    cases helement : element? ces item with
    | none =>
      rw [elementPlaces_cons_of_none helement] at h
      rw [ih h]
      cases kind <;> simp [elementCopies, inheritsControl, namesElement, helement]
    | some element =>
      obtain ⟨s, controls, more, htext, hcontrols, hmore, rfl⟩ := of_elementPlaces_cons helement h
      have hinherits : inheritsControl ces name item = isOn (controlsOf element) name := by
        rw [inheritsControl, helement, Option.any_some]
      have hnames : namesElement ces name item = (Scalar.text s == name) := by
        simp [namesElement, helement, htext]
      rw [List.countP_cons, List.countP_append, inherited_eq_ok hcontrols,
        countP_controls (distinct_controlsOf (wellFormed_element? hces helement)), ih hmore]
      -- The element stands under its own name once, and under each control that it hands on.
      cases kind with
      | checks => simp [elementCopies, isAt]
      | controls =>
        simp [elementCopies, isAt, List.countP_cons, hinherits]
        omega
      | ces => simp [elementCopies, isAt, List.countP_cons, hnames]

/-- A specification is filed under a name as often as it is to stand there. -/
lemma countP_places (hces : (Value.mapping ces).WellFormed) {spec : Specification}
    (hspec : spec.WellFormed) {found : List (ReferenceKind × Scalar)}
    (h : places ces spec = .ok found) (kind : ReferenceKind) (name : Scalar) :
    found.countP (isAt kind name) = copies ces spec name kind := by
  unfold places at h
  cases helements : elementPlaces ces (spec.ces.getD []) with
  | error fault =>
    rw [helements] at h
    cases h
  | ok elements =>
    rw [helements] at h
    cases h
    have hown : Table.Distinct (spec.controls.getD []) := by
      cases hcontrols : spec.controls with
      | none => exact Table.distinct_nil
      | some entries =>
        have hformed := hspec.metadata .controls
        simp only [Specification.metadata, hcontrols] at hformed
        exact (Value.wellFormed_mapping.1 hformed).1
    rw [List.countP_cons, List.countP_append, countP_controls hown,
      countP_elementPlaces hces helements]
    cases kind <;> simp [copies, elementCopies, isAt]

/-! ## Filing -/

/-- A specification stands under a name once for each of its places there. -/
lemma find_fileAll (spec : Specification) (index : CheckIndex)
    (places : List (ReferenceKind × Scalar)) (kind : ReferenceKind) (name : Scalar) :
    (fileAll spec index places).find kind name =
      index.find kind name ++ List.replicate (places.countP (isAt kind name)) spec := by
  induction places generalizing index with
  | nil => simp [fileAll]
  | cons place rest ih =>
    have hfirst : (if place.1 = kind ∧ (place.2 == name) = true then [spec] else []) =
        List.replicate (if isAt kind name place then 1 else 0) spec := by
      by_cases hat : isAt kind name place = true
      · have hboth : place.1 = kind ∧ (place.2 == name) = true := by simpa [isAt] using hat
        rw [if_pos hboth, if_pos hat]
        rfl
      · have hboth : ¬ (place.1 = kind ∧ (place.2 == name) = true) := by simpa [isAt] using hat
        rw [if_neg hboth, if_neg hat]
        rfl
    show (fileAll spec (file spec index place) rest).find kind name = _
    rw [ih, find_file, hfirst, List.append_assoc, List.replicate_append_replicate,
      List.countP_cons, Nat.add_comm]

/-- No name of the index has an empty list. -/
def NoneEmpty (index : CheckIndex) : Prop := ∀ kind name, (index.table kind).get? name ≠ some []

lemma noneEmpty_empty : empty.NoneEmpty := by
  intro kind name
  cases kind <;> nofun

lemma NoneEmpty.file {index : CheckIndex} (h : index.NoneEmpty) (spec : Specification)
    (place : ReferenceKind × Scalar) : (file spec index place).NoneEmpty := by
  intro kind name
  have htable : (CheckIndex.file spec index place).table kind =
      if place.1 = kind then (index.table kind).append place.2 spec else index.table kind := by
    obtain ⟨at_, key⟩ := place
    cases at_ <;> cases kind <;> rfl
  rw [htable]
  split
  · -- The list that is put has the specification at its end.
    rw [Table.append_eq_put, Table.get?_put]
    split
    · simp
    · exact h kind name
  · exact h kind name

lemma NoneEmpty.fileAll {index : CheckIndex} (h : index.NoneEmpty) (spec : Specification)
    (places : List (ReferenceKind × Scalar)) : (fileAll spec index places).NoneEmpty := by
  induction places generalizing index with
  | nil => exact h
  | cons place rest ih => exact ih (h.file spec place)

/-- Where no list is empty, a name stands in the index if something is found under it. -/
lemma NoneEmpty.get?_eq {index : CheckIndex} (h : index.NoneEmpty) (kind : ReferenceKind)
    (name : Scalar) {found : Option Specification} (hfind : index.find kind name = found.toList) :
    (index.table kind).get? name = found.map fun s => [s] := by
  have hne := h kind name
  unfold find at hfind
  cases hget : (index.table kind).get? name with
  | none =>
    rw [hget] at hfind
    cases found with
    | none => rfl
    | some s => cases hfind
  | some specs =>
    rw [hget] at hfind hne
    cases found with
    | none => exact absurd (congrArg some hfind) hne
    | some s => exact congrArg some hfind

/-! ## Building -/

/-- One more catalog entry adds the copies of its specification, if it is registered. -/
lemma find_add (hces : (Value.mapping ces).WellFormed)
    {index index' : CheckIndex} {name : Scalar} {body : Value} (hbody : body.WellFormed)
    (h : (add ces index name body).outcome = .ok index') (kind : ReferenceKind) (key : Scalar) :
    index'.find kind key = index.find kind key ++
      (Specification.registered? name body).toList.flatMap fun s =>
        List.replicate (copies ces s key kind) s := by
  obtain ⟨entry, hclass, h⟩ := Told.of_outcome_bind h
  rw [← toOption_of_classify hclass]
  cases entry with
  | error reason =>
    cases h
    simp [Except.toOption]
  | ok spec =>
    obtain ⟨found, hfound, h⟩ := Told.of_outcome_bind h
    cases h
    rw [find_fileAll, countP_places hces (wellFormed_of_classify hbody hclass) hfound]
    simp [Except.toOption]

/-- What is found under a name after more catalog entries: what was found before, and the copies of
the registered specifications, in the order of the catalog. -/
lemma find_addAll (hces : (Value.mapping ces).WellFormed) {index index' : CheckIndex}
    {entries : Entries} (hentries : ∀ e ∈ entries, e.2.WellFormed)
    (h : (addAll ces index entries).outcome = .ok index') (kind : ReferenceKind) (name : Scalar) :
    index'.find kind name = index.find kind name ++
      (registered entries).flatMap fun s => List.replicate (copies ces s name kind) s := by
  induction entries generalizing index with
  | nil =>
    cases h
    exact (List.append_nil _).symm
  | cons e rest ih =>
    obtain ⟨hbody, hrest⟩ := List.forall_mem_cons.1 hentries
    obtain ⟨next, hadd, h⟩ := Told.of_outcome_bind h
    rw [ih hrest h, find_add hces hbody hadd, registered_cons, List.flatMap_append,
      List.append_assoc]

lemma noneEmpty_of_addAll {index index' : CheckIndex} (hindex : index.NoneEmpty)
    {entries : Entries} (h : (addAll ces index entries).outcome = .ok index') :
    index'.NoneEmpty := by
  induction entries generalizing index with
  | nil =>
    cases h
    exact hindex
  | cons e rest ih =>
    obtain ⟨next, hadd, h⟩ := Told.of_outcome_bind h
    obtain ⟨entry, -, hadd⟩ := Told.of_outcome_bind hadd
    cases entry with
    | error reason =>
      cases hadd
      exact ih hindex h
    | ok spec =>
      obtain ⟨found, -, hadd⟩ := Told.of_outcome_bind hadd
      cases hadd
      exact ih (hindex.fileAll spec found) h

/-! ## The names of checks -/

/-- Under a name there is one specification at most. -/
lemma flatMap_registered {checks : Entries} (h : Table.Distinct checks) (name : Scalar) :
    ((registered checks).flatMap fun s =>
        List.replicate (if Scalar.text s.name == name then 1 else 0) s) =
      ((checks.get? name).bind (Specification.registered? name)).toList := by
  induction checks with
  | nil => rfl
  | cons e rest ih =>
    have hrest := ih (Table.distinct_cons.1 h).2
    -- The first check stands under its own name, which no other check has.
    have hown : ((Specification.registered? e.1 e.2).toList.flatMap fun s =>
        List.replicate (if Scalar.text s.name == name then 1 else 0) s) =
          if e.1 == name then (Specification.registered? e.1 e.2).toList else [] := by
      cases hregistered : Specification.registered? e.1 e.2 with
      | none => simp
      | some s =>
        rw [Specification.eq_of_registered? hregistered]
        by_cases hname : (Scalar.text s.name == name) = true
        · simp [hname]
        · simp [hname]
    rw [registered_cons, List.flatMap_append, hown, hrest, Table.get?_cons]
    by_cases hname : (e.1 == name) = true
    · rw [if_pos hname, if_pos hname, Table.get?_eq_none_of_distinct h hname,
        Specification.registered?_congr hname]
      simp
    · rw [if_neg hname, if_neg hname, List.nil_append]

/-- The index is the inversion of the catalogs.  Under the name of a check stands its
specification if it is registered; under a control, each registered specification once for its own
control and once for each position in its list of a configuration element with this control; under
a configuration element, each registered specification once for each position of it in its list.
No name has an empty list. -/
theorem inverts_of_build {checks ces : Entries} {index : CheckIndex}
    (hchecks : (Value.mapping checks).WellFormed) (hces : (Value.mapping ces).WellFormed)
    (hbuild : (build checks ces).outcome = .ok index) :
    (∀ name, index.checks.get? name =
      ((checks.get? name).bind (Specification.registered? name)).map fun s => [s]) ∧
    (∀ control, index.find .controls control = (registered checks).flatMap fun s =>
      List.replicate ((if isOn (s.controls.getD []) control then 1 else 0) +
        (s.ces.getD []).countP (inheritsControl ces control)) s) ∧
    (∀ element, index.find .ces element = (registered checks).flatMap fun s =>
      List.replicate ((s.ces.getD []).countP (namesElement ces element)) s) ∧
    ∀ kind name, (index.table kind).get? name ≠ some [] := by
  obtain ⟨hdistinct, hbodies⟩ := Value.wellFormed_mapping.1 hchecks
  have hempty : ∀ kind name, empty.find kind name = [] := by
    intro kind name
    cases kind <;> rfl
  have hfind : ∀ kind name, index.find kind name =
      (registered checks).flatMap fun s => List.replicate (copies ces s name kind) s := by
    intro kind name
    rw [find_addAll hces hbodies hbuild, hempty, List.nil_append]
  have hnone : index.NoneEmpty := noneEmpty_of_addAll noneEmpty_empty hbuild
  refine ⟨fun name => ?_, fun control => hfind .controls control,
    fun element => hfind .ces element, hnone⟩
  exact hnone.get?_eq .checks name
    ((hfind .checks name).trans (flatMap_registered hdistinct name))

/-- A check of a parameter with the given controls and configuration elements. -/
def checkOf (controls ces : Value) : Value :=
  .ofTexts [("type", .text "puppet"),
    ("settings", .ofTexts [("parameter", .text "p"), ("value", .int 1)]),
    ("controls", controls), ("ces", ces)]

/-- Checks of which the first lists a configuration element twice, and two are not registered. -/
def listing : Entries :=
  [(.text "first", checkOf (.ofTexts [("a", .bool true), ("b", .bool false)])
      (.list [.text "e", .int 5, .text "gone", .text "e"])),
    (.text "bad", checkOf (.list [.text "a"]) .null), (.int 1, checkOf .null .null),
    (.text "last", checkOf (.ofTexts [("a", .int 1)]) (.list []))]

/-- A configuration element with controls. -/
def elements : Entries :=
  [(.text "e", .ofTexts [("controls", .ofTexts [("a", .bool true), ("c", .bool true)])])]

/-- The first check stands three times under the control that it shares with the element. -/
theorem inverts_of_build_listing :
    ∃ index, (build listing elements).outcome = .ok index ∧
      (index.find .controls (.text "a")).map (·.name) = ["first", "first", "first", "last"] ∧
      (index.find .controls (.text "c")).map (·.name) = ["first", "first"] ∧
      (index.find .ces (.text "e")).map (·.name) = ["first", "first"] ∧
      index.controls.get? (.text "b") = none ∧ index.checks.get? (.text "bad") = none := by
  have hchecks : (Value.mapping listing).WellFormed := by decide
  have hces : (Value.mapping elements).WellFormed := by decide
  obtain ⟨index, hbuild⟩ : ∃ index, (build listing elements).outcome = .ok index := ⟨_, rfl⟩
  obtain ⟨hnames, hcontrols, helements, hnone⟩ := inverts_of_build hchecks hces hbuild
  refine ⟨index, hbuild, ?_, ?_, ?_, ?_, ?_⟩
  · rw [hcontrols]
    decide +kernel
  · rw [hcontrols]
    decide +kernel
  · rw [helements]
    decide +kernel
  · have hfind : index.find .controls (.text "b") = Option.toList none := by
      rw [hcontrols]
      exact List.isEmpty_iff.1 (by decide +kernel)
    exact NoneEmpty.get?_eq hnone .controls (.text "b") hfind
  · rw [hnames]
    rfl

end CheckIndex

end ProfileCompiler
