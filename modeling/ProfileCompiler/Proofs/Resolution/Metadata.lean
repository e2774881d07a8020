import ProfileCompiler.Proofs.Merge.Paths
import ProfileCompiler.Proofs.Resolution.Collection
import ProfileCompiler.Proofs.Resolution.Slots

/-!
# Specifications without a metadata field

A specification may have nothing in a metadata field.  What a parameter's field comes to depends
on the values that specifications have there, in working order (`carried`).  Where they stand
among the others makes no difference, but for the first specification of the parameter.  If it
has nothing in the field, the field starts as an empty mapping, and this cannot take in a list or
a scalar.

The main result is `Resolution.comesTo_carried`.
-/

namespace ProfileCompiler

/-- The values that specifications have in a metadata field, in order. -/
def carried (f : MetadataField) (specs : List Specification) : List Value :=
  specs.filterMap fun s => s.offer (.metadata f)

namespace Slot

variable {f : MetadataField} {p : String} {specs : List Specification}

/-- An empty mapping takes in a mapping whole. -/
lemma mergeField_empty_of_mapping {v : Value} (hv : v.WellFormed) (hmapping : v.isMapping = true)
    (field : String) : Assignment.mergeField p field (.mapping []) v = .ok v := by
  cases v with
  | scalar x => cases hmapping
  | list items => cases hmapping
  | mapping entries =>
    have hentries : mergeEntries none [] entries = entries :=
      mergeEntries_of_distinct (Value.wellFormed_mapping.1 hv).1
    show Except.ok (Value.mapping (mergeEntries none [] entries)) = _
    rw [hentries]

/-- An empty mapping takes in nothing else. -/
lemma mergeField_empty_of_not_mapping {v : Value} (hv : v.isMapping = false) (field : String) :
    Assignment.mergeField p field (.mapping []) v = .error (.unmergeable p field true) := by
  cases v with
  | scalar x => rfl
  | list items => rfl
  | mapping entries => cases hv

/-- What a metadata field comes to, from the values that the specifications have. -/
lemma outcome_metadata {s : Specification} {rest : List Specification}
    (hspecs : ∀ t ∈ s :: rest, t.parameter = p) :
    (Slot.metadata f).outcome (s :: rest) =
      match s.offer (.metadata f) with
      | some v => (carried f rest).foldlM (Assignment.mergeField p f.key) v
      | none => (carried f rest).foldlM (Assignment.mergeField p f.key) (.mapping []) := by
  rw [outcome, foldlM_takeIn (List.forall_mem_cons.1 hspecs).2]
  cases s.offer (.metadata f) <;> rfl

end Slot

namespace Resolution

variable {profiles : Entries} {index : CheckIndex} {active : List Value}
  {specs : List Specification} {p : String}

lemma wellFormed_carried (hspecs : ∀ s ∈ specs, s.WellFormed) {f : MetadataField} {v : Value}
    (hv : v ∈ carried f specs) : v.WellFormed := by
  obtain ⟨s, hs, hoffer⟩ := List.mem_filterMap.1 hv
  exact (hspecs s hs).offer hoffer

/-- A metadata field of a parameter comes to an empty mapping if no specification has it.  It
comes to the merge of the values that specifications have, in working order, if the first
specification has one of them or the first of them is a mapping.  Otherwise it comes to a
fault. -/
theorem comesTo_carried (hindex : index.WellFormed)
    (hspecs : (collect profiles index active).outcome = .ok specs) (hp : about p specs ≠ [])
    (f : MetadataField) :
    (carried f (about p specs) = [] →
      ComesTo profiles index active p (.metadata f) (.ok (.mapping []))) ∧
    ∀ v vs, carried f (about p specs) = v :: vs →
      (((about p specs).head?.bind fun s => s.offer (.metadata f)).isSome = true ∨
          v.isMapping = true →
        ComesTo profiles index active p (.metadata f)
          (vs.foldlM (Assignment.mergeField p f.key) v)) ∧
      (((about p specs).head?.bind fun s => s.offer (.metadata f)).isSome = false →
        v.isMapping = false →
        ComesTo profiles index active p (.metadata f) (.error (.unmergeable p f.key true))) := by
  have hcomes := comesTo_outcome hspecs hp (.metadata f)
  have hformed : ∀ v ∈ carried f (about p specs), v.WellFormed := fun v hv =>
    wellFormed_carried (fun s hs => wellFormed_of_collect hindex hspecs s (mem_about.1 hs).1) hv
  have hparameter : ∀ s ∈ about p specs, s.parameter = p := fun s hs => (mem_about.1 hs).2
  obtain ⟨s, rest, hown⟩ := List.exists_cons_of_ne_nil hp
  rw [hown] at hcomes hformed hparameter ⊢
  rw [Slot.outcome_metadata hparameter] at hcomes
  have hcarried : carried f (s :: rest) =
      (s.offer (.metadata f)).toList ++ carried f rest := by
    rw [carried, List.filterMap_cons]
    cases s.offer (.metadata f) <;> rfl
  rw [hcarried] at hformed ⊢
  simp only [List.head?_cons, Option.bind_some]
  cases hoffer : s.offer (.metadata f) with
  | some first =>
    -- The first specification has the field.
    rw [hoffer] at hcomes
    refine ⟨nofun, fun v vs hv => ⟨fun _ => ?_, nofun⟩⟩
    cases hv
    exact hcomes
  | none =>
    -- The assignment starts from an empty mapping, into which only a mapping can be merged.
    rw [hoffer] at hcomes hformed
    refine ⟨fun hnone => ?_, fun v vs hv => ⟨fun hor => ?_, fun _ hnot => ?_⟩⟩
    · rw [show carried f rest = [] from hnone] at hcomes
      exact hcomes
    · have hmapping : v.isMapping = true := hor.resolve_left Bool.false_ne_true
      have hvrest : carried f rest = v :: vs := hv
      rw [hvrest] at hcomes hformed
      rw [List.foldlM_cons, Slot.mergeField_empty_of_mapping (hformed v (by simp)) hmapping]
        at hcomes
      exact hcomes
    · rw [show carried f rest = v :: vs from hv, List.foldlM_cons,
        Slot.mergeField_empty_of_not_mapping hnot] at hcomes
      exact hcomes

/-- Two checks of one parameter, of which the second one only has identifiers. -/
def bareFirst : Entries :=
  let settings : Value := .ofTexts [("parameter", .text "x"), ("value", .int 1)]
  [(.text "bare", .ofTexts [("type", .text "puppet"), ("settings", settings)]),
    (.text "named", .ofTexts [("type", .text "puppet"), ("settings", settings),
      ("identifiers", .list [.text "i"])])]

/-- A profile with both checks, and one with the second check. -/
def bothOrNamed : Entries :=
  [(.text "both", .ofTexts [("checks", .ofTexts [("bare", .bool true), ("named", .bool true)])]),
    (.text "named", .ofTexts [("checks", .ofTexts [("named", .bool true)])])]

/-- The check without identifiers stands first, so those of the other one cannot be merged. -/
theorem comesTo_carried_bareFirst :
    let index := CheckIndex.ofChecks bareFirst
    index.WellFormed ∧
      (∃ specs, (collect bothOrNamed index [.text "both"]).outcome = .ok specs ∧
        about "x" specs ≠ []) ∧
      ComesTo bothOrNamed index [.text "both"] "x" (.metadata .identifiers)
        (.error (.unmergeable "x" "identifiers" true)) := by
  intro index
  have hindex : index.WellFormed := CheckIndex.wellFormed_ofChecks (by decide)
  have hspecs : (collect bothOrNamed index [.text "both"]).outcome =
      .ok (index.find .checks (.text "bare") ++ index.find .checks (.text "named")) := rfl
  have hp : about "x" (index.find .checks (.text "bare") ++
      index.find .checks (.text "named")) ≠ [] := by decide +kernel
  exact ⟨hindex, ⟨_, hspecs, hp⟩,
    ((comesTo_carried hindex hspecs hp .identifiers).2 (.list [.text "i"]) [] rfl).2 rfl rfl⟩

/-- With both checks or with one of them, the identifiers that specifications have are the same.
With the one alone they are those of the parameter, and with both there is a fault. -/
theorem resolve_bareFirst :
    let index := CheckIndex.ofChecks bareFirst
    (∃ both named, (collect bothOrNamed index [.text "both"]).outcome = .ok both ∧
      (collect bothOrNamed index [.text "named"]).outcome = .ok named ∧
      carried .identifiers (about "x" both) = carried .identifiers (about "x" named)) ∧
    (∃ assignments a, (resolve bothOrNamed index [.text "named"]).outcome = .ok assignments ∧
      assignments.get? "x" = some a ∧ a.identifiers = .list [.text "i"]) ∧
    (resolve bothOrNamed index [.text "both"]).outcome =
      .error (.unmergeable "x" "identifiers" true) :=
  ⟨⟨_, _, rfl, rfl, rfl⟩, ⟨_, _, rfl, rfl, rfl⟩, rfl⟩

end Resolution

end ProfileCompiler
