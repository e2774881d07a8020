import ProfileCompiler.CheckIndex
import ProfileCompiler.Proofs.WellFormed

/-!
# Specifications of decoded checks

The values and metadata of a specification are parts of the check that it was read from.  So they
are well formed if the check is (`Specification.wellFormed_of_ofCheck`), and an index of
well-formed checks has well-formed specifications only (`CheckIndex.wellFormed_of_build`).
-/

namespace ProfileCompiler

namespace Reading

variable {α β : Type}

lemma both_eq_ok {x : Reading α} {y : Reading β} {a : α} {b : β}
    (h : both x y = .ok (a, b)) : x = .ok a ∧ y = .ok b := by
  unfold both at h
  split at h
  · cases h
    exact ⟨rfl, rfl⟩
  · cases h
  · cases h
  · cases h

lemma under_eq_ok {name : String} {x : Reading α} {a : α} (h : under name x = .ok a) :
    x = .ok a := by
  cases x with
  | ok b => exact h
  | error complaints => cases h

lemma required_eq_ok {name : String} {read : Value → Reading α} {fields : Entries} {a : α}
    (h : required name read fields = .ok a) :
    ∃ v, fields.get? (.text name) = some v ∧ read v = .ok a := by
  unfold required at h
  split at h
  · rename_i v hv
    exact ⟨v, hv, under_eq_ok h⟩
  · cases h

lemma defaulted_eq_ok {name : String} {default : α} {read : Value → Reading α}
    {fields : Entries} {a : α} (h : defaulted name default read fields = .ok a) :
    a = default ∨ ∃ v, fields.get? (.text name) = some v ∧ read v = .ok a := by
  unfold defaulted at h
  split at h
  · rename_i v hv
    exact Or.inr ⟨v, hv, under_eq_ok h⟩
  · exact Or.inl (Except.ok.inj h).symm

lemma map_eq_ok {x : Reading α} {f : α → β} {b : β} (h : x.map f = .ok b) :
    ∃ a, x = .ok a ∧ f a = b := by
  cases x with
  | ok a => exact ⟨a, rfl, Except.ok.inj h⟩
  | error complaints => cases h

/-- The entries of a mapping with texts as keys are those of the mapping. -/
lemma mapping_eq_ok {v : Value} {entries : Entries} (h : mapping v = .ok entries) :
    v = .mapping entries := by
  unfold mapping at h
  cases v with
  | scalar s => cases h
  | list items => cases h
  | mapping es =>
    simp only [Value.entries?] at h
    split at h
    · rw [Except.ok.inj h]
    · cases h

end Reading

namespace Specification

/-- The value and the metadata of a specification are well formed. -/
structure WellFormed (s : Specification) : Prop where
  value : s.value.WellFormed
  metadata : ∀ f, (s.metadata f).WellFormed

variable {body : Entries}

lemma wellFormed_getD_get? (h : (Value.mapping body).WellFormed) (k : Scalar) :
    ((body.get? k).getD .null).WellFormed := by
  cases hget : body.get? k with
  | none => exact trivial
  | some v => exact Value.wellFormed_of_get? h hget

lemma wellFormed_firstOf (h : (Value.mapping body).WellFormed) (names : List String) :
    (firstOf names body).WellFormed := by
  unfold firstOf
  cases hfirst : (names.filterMap fun n => body.get? (.text n)).head? with
  | none => exact trivial
  | some v =>
    obtain ⟨n, -, hn⟩ := List.mem_filterMap.1 (List.mem_of_head? hfirst)
    exact Value.wellFormed_of_get? h hn

/-- The value of a check is part of its settings. -/
lemma wellFormed_of_settings {v : Value} (h : v.WellFormed) {parameter : String} {value : Value}
    (hsettings : settings v = .ok (parameter, value)) : value.WellFormed := by
  unfold settings at hsettings
  cases v with
  | scalar s => cases hsettings
  | list items => cases hsettings
  | mapping entries =>
    obtain ⟨p, -, heq⟩ := Reading.map_eq_ok hsettings
    cases heq
    exact wellFormed_getD_get? h (.text "value")

lemma wellFormed_of_optional {v : Value} (h : v.WellFormed) {entries : Entries}
    (hread : optional Reading.mapping v = .ok (some entries)) :
    (Value.mapping entries).WellFormed := by
  unfold optional at hread
  split at hread
  · cases hread
  · obtain ⟨es, hes, heq⟩ := Reading.map_eq_ok hread
    cases heq
    rw [← Reading.mapping_eq_ok hes]
    exact h

/-- The specification of a well-formed check is well formed. -/
theorem wellFormed_of_ofCheck (h : (Value.mapping body).WellFormed) {name : Value}
    {s : Specification} (hs : ofCheck name body = .ok s) : s.WellFormed := by
  unfold ofCheck at hs
  obtain ⟨⟨n, t, ⟨p, v⟩, controls, ces⟩, hparts, rfl⟩ := Reading.map_eq_ok hs
  obtain ⟨-, hparts⟩ := Reading.both_eq_ok hparts
  obtain ⟨-, hparts⟩ := Reading.both_eq_ok hparts
  obtain ⟨hsettings, hparts⟩ := Reading.both_eq_ok hparts
  obtain ⟨hcontrols, -⟩ := Reading.both_eq_ok hparts
  constructor
  · obtain ⟨settings, hget, hread⟩ := Reading.required_eq_ok hsettings
    exact wellFormed_of_settings (Value.wellFormed_of_get? h hget) hread
  · intro f
    cases f with
    | identifiers => exact wellFormed_firstOf h _
    | ovalIds => exact wellFormed_firstOf h _
    | controls =>
      cases controls with
      | none => exact trivial
      | some entries =>
        rcases Reading.defaulted_eq_ok hcontrols with hnone | ⟨v, hget, hread⟩
        · cases hnone
        · exact wellFormed_of_optional (Value.wellFormed_of_get? h hget) hread

end Specification

namespace CheckIndex

/-- All specifications of the index are well formed. -/
def WellFormed (index : CheckIndex) : Prop :=
  ∀ kind name, ∀ s ∈ index.find kind name, s.WellFormed

/-- A specification is filed at its place and nowhere else. -/
lemma find_file (spec : Specification) (index : CheckIndex) (place : ReferenceKind × Scalar)
    (kind : ReferenceKind) (name : Scalar) :
    (file spec index place).find kind name =
      index.find kind name ++
        if place.1 = kind ∧ (place.2 == name) = true then [spec] else [] := by
  obtain ⟨at_, key⟩ := place
  cases at_ <;> cases kind <;>
    simp [file, find, table, Table.getD_get?_append]

lemma wellFormed_empty : empty.WellFormed := by
  intro kind name s hs
  cases kind <;> cases hs

lemma wellFormed_fileAll {index : CheckIndex} (h : index.WellFormed) {spec : Specification}
    (hspec : spec.WellFormed) (places : List (ReferenceKind × Scalar)) :
    (fileAll spec index places).WellFormed := by
  induction places generalizing index with
  | nil => exact h
  | cons place rest ih =>
    refine ih fun kind name s hs => ?_
    rw [find_file] at hs
    rcases List.mem_append.1 hs with hs | hs
    · exact h kind name s hs
    · split at hs
      · rw [List.mem_singleton.1 hs]
        exact hspec
      · cases hs

lemma wellFormed_of_classify {name : Scalar} {body : Value} (h : body.WellFormed)
    {spec : Specification} (hspec : classify name body = .ok (.ok spec)) : spec.WellFormed := by
  cases body with
  | scalar s => cases hspec
  | list items => cases hspec
  | mapping entries =>
    -- Every other way through the entry ends without a specification.
    have hread : ∃ n, Specification.ofCheck n entries = .ok spec := by
      unfold classify at hspec
      simp only at hspec
      repeat' split at hspec
      all_goals try cases hspec
      cases hcheck : Specification.ofCheck (.scalar name) entries with
      | error complaints => rw [hcheck] at hspec; cases hspec
      | ok t =>
        rw [hcheck] at hspec
        cases hspec
        exact ⟨_, hcheck⟩
    obtain ⟨n, hn⟩ := hread
    exact Specification.wellFormed_of_ofCheck h hn

lemma wellFormed_of_add {ces : Entries} {index index' : CheckIndex} (h : index.WellFormed)
    {name : Scalar} {body : Value} (hbody : body.WellFormed)
    (hadd : (add ces index name body).outcome = .ok index') : index'.WellFormed := by
  obtain ⟨entry, hclass, hadd⟩ := Told.of_outcome_bind hadd
  cases entry with
  | error reason =>
    cases hadd
    exact h
  | ok spec =>
    obtain ⟨found, -, hadd⟩ := Told.of_outcome_bind hadd
    cases hadd
    exact wellFormed_fileAll h (wellFormed_of_classify hbody hclass) found

/-- The index of well-formed checks has well-formed specifications. -/
theorem wellFormed_of_build {checks ces : Entries} {index : CheckIndex}
    (hchecks : ∀ e ∈ checks, e.2.WellFormed) (hbuild : (build checks ces).outcome = .ok index) :
    index.WellFormed := by
  have hall : ∀ (entries : Entries) (start : CheckIndex), start.WellFormed →
      (∀ e ∈ entries, e.2.WellFormed) →
      (addAll ces start entries).outcome = .ok index → index.WellFormed := by
    intro entries
    induction entries with
    | nil =>
      intro start hstart _ haddAll
      cases haddAll
      exact hstart
    | cons e rest ih =>
      intro start hstart hentries haddAll
      obtain ⟨name, body⟩ := e
      obtain ⟨hbody, hrest⟩ := List.forall_mem_cons.1 hentries
      obtain ⟨next, hadd, haddAll⟩ := Told.of_outcome_bind haddAll
      exact ih next (wellFormed_of_add hstart hbody hadd) hrest haddAll
  exact hall checks empty wellFormed_empty hchecks hbuild

/-- The index of checks without configuration elements.  It is empty if a check is faulty. -/
def ofChecks (checks : Entries) : CheckIndex :=
  match (build checks []).outcome with
  | .ok index => index
  | .error _ => empty

lemma wellFormed_ofChecks {checks : Entries} (h : ∀ e ∈ checks, e.2.WellFormed) :
    (ofChecks checks).WellFormed := by
  unfold ofChecks
  split
  · rename_i index hbuild
    exact wellFormed_of_build h hbuild
  · exact wellFormed_empty

end CheckIndex

end ProfileCompiler
