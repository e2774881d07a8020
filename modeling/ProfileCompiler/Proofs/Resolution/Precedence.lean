import ProfileCompiler.Proofs.Merge.Paths
import ProfileCompiler.Proofs.Resolution.Collection
import ProfileCompiler.Proofs.Resolution.Slots

/-!
# The precedence of profiles

Of several scalars for one parameter the last in working order is its value.  Of several mappings
the same holds leaf by leaf.  Since the profiles are worked through from the last to the first,
the value or the leaf is from the first listed profile that has one.

The main result is `Resolution.comesTo_value`.
-/

namespace ProfileCompiler

namespace Slot

variable {specs : List Specification}

/-- Of scalars the last one is the value. -/
lemma outcome_value_of_scalars (hscalar : ∀ s ∈ specs, ∃ x, s.value = .scalar x)
    {last : Specification} (hlast : specs.getLast? = some last) :
    Slot.value.outcome specs = .ok last.value := by
  induction specs using List.reverseRecOn generalizing last with
  | nil => cases hlast
  | append_singleton specs s ih =>
    obtain rfl : s = last := by simpa using hlast
    by_cases hne : specs = []
    · subst hne
      rfl
    have hbefore : ∀ t ∈ specs, ∃ x, t.value = .scalar x := fun t ht =>
      hscalar t (List.mem_append_left _ ht)
    obtain ⟨previous, hprevious⟩ :=
      Option.ne_none_iff_exists'.1 (mt List.getLast?_eq_none_iff.1 hne)
    obtain ⟨x, hx⟩ := hbefore previous (List.mem_of_getLast? hprevious)
    rw [outcome_append_singleton hne, ih hbefore hprevious, hx]
    rfl

lemma takeIn_value_of_mappings {held : Value} {s : Specification} (hheld : held.isMapping = true)
    (hs : s.value.isMapping = true) :
    Slot.value.takeIn held s = .ok (mergedValue none (some held) s.value) := by
  show Assignment.mergeField s.parameter "value" held s.value = _
  cases held with
  | scalar x => cases hheld
  | list items => cases hheld
  | mapping dest =>
    cases hvalue : s.value with
    | scalar x => rw [hvalue] at hs; cases hs
    | list items => rw [hvalue] at hs; cases hs
    | mapping source =>
      rw [mergedValue_mapping]
      rfl

/-- Whether the value of a specification has something at the end of a path. -/
def having (path : List Scalar) (s : Specification) : Bool := (s.value.at? path).isSome

/-- Mappings are merged, and at the end of a clear path the last one that has something there
counts. -/
lemma outcome_value_of_mappings (hne : specs ≠ [])
    (hmapping : ∀ s ∈ specs, s.value.isMapping = true) :
    ∃ v, Slot.value.outcome specs = .ok v ∧ v.isMapping = true ∧
      ∀ path, (∀ s ∈ specs, s.value.WellFormed ∧ s.value.Clear path) →
        (∀ s ∈ specs, ∀ w, s.value.at? path = some w → w.isMapping = false) →
        v.Clear path ∧
          v.at? path = (specs.filter (having path)).getLast?.bind fun s => s.value.at? path := by
  induction specs using List.reverseRecOn with
  | nil => exact absurd rfl hne
  | append_singleton specs s ih =>
    by_cases hfirst : specs = []
    · subst hfirst
      refine ⟨s.value, rfl, hmapping s (by simp), fun path hclear hleaf => ?_⟩
      refine ⟨(hclear s (by simp)).2, ?_⟩
      cases hhas : s.value.at? path <;> simp [having, hhas]
    obtain ⟨v, hv, hvmapping, hpaths⟩ :=
      ih hfirst fun t ht => hmapping t (List.mem_append_left _ ht)
    have hs : s.value.isMapping = true := hmapping s (by simp)
    refine ⟨mergedValue none (some v) s.value, ?_, ?_, ?_⟩
    · rw [outcome_append_singleton hfirst, hv]
      exact takeIn_value_of_mappings hvmapping hs
    · rw [isMapping_mergedValue]
      exact hs
    · intro path hclear hleaf
      -- The last mapping writes over the path if it has something there, and else spares it.
      obtain ⟨hvclear, hvat⟩ := hpaths path (fun t ht => hclear t (List.mem_append_left _ ht))
        fun t ht => hleaf t (List.mem_append_left _ ht)
      obtain ⟨hformed, hsclear⟩ := hclear s (by simp)
      have hold : ∀ u, some v = some u → u.Clear path := by
        intro u hu
        rw [← Option.some.inj hu]
        exact hvclear
      refine ⟨hsclear.mergedValue hformed hold, ?_⟩
      rw [Value.at?_mergedValue hformed hsclear (hleaf s (by simp)) hold, Option.bind_some, hvat,
        List.filter_append]
      cases hhas : s.value.at? path with
      | none => simp [having, hhas]
      | some w => simp [having, hhas]

end Slot

namespace Resolution

variable {profiles : Entries} {index : CheckIndex} {active : List Value}
  {specs : List Specification} {p : String}

/-- The value of a parameter is that of the first listed profile.  If all specifications of the
parameter have scalars, this is about the value as a whole.  If all of them have mappings, it is
about each leaf at the end of a path that is clear in all of them. -/
theorem comesTo_value (hindex : index.WellFormed)
    (hspecs : (collect profiles index active).outcome = .ok specs) (hp : about p specs ≠ []) :
    ((∀ s ∈ about p specs, ∃ x, s.value = .scalar x) →
      ∃ last, Prevails profiles index active specs (fun s => s.parameter == p) last ∧
        ComesTo profiles index active p .value (.ok last.value)) ∧
    ((∀ s ∈ about p specs, s.value.isMapping = true) →
      ∃ v, ComesTo profiles index active p .value (.ok v) ∧
        ∀ path, (∀ s ∈ about p specs, s.value.Clear path) →
          (∀ s ∈ about p specs, ∀ w, s.value.at? path = some w → w.isMapping = false) →
          (∃ s ∈ about p specs, (s.value.at? path).isSome = true) →
          ∃ last, Prevails profiles index active specs
              (fun s => (s.value.at? path).isSome && s.parameter == p) last ∧
            v.at? path = last.value.at? path) := by
  have hcomes := comesTo_outcome hspecs hp .value
  constructor
  · intro hscalar
    obtain ⟨last, hlast⟩ := exists_prevails hspecs hp
    refine ⟨last, hlast, ?_⟩
    rw [Slot.outcome_value_of_scalars hscalar hlast.latest] at hcomes
    exact hcomes
  · intro hmapping
    obtain ⟨v, hv, -, hpaths⟩ := Slot.outcome_value_of_mappings hp hmapping
    rw [hv] at hcomes
    refine ⟨v, hcomes, fun path hclear hleaf ⟨s, hs, hhas⟩ => ?_⟩
    have hfilter : (about p specs).filter (Slot.having path) =
        specs.filter fun s => (s.value.at? path).isSome && s.parameter == p :=
      List.filter_filter
    have hwanted : (specs.filter fun s => (s.value.at? path).isSome && s.parameter == p) ≠ [] := by
      rw [← hfilter]
      exact List.ne_nil_of_mem (List.mem_filter.2 ⟨hs, hhas⟩)
    obtain ⟨last, hlast⟩ := exists_prevails hspecs hwanted
    refine ⟨last, hlast, ?_⟩
    have hformed := wellFormed_of_collect hindex hspecs
    rw [(hpaths path (fun t ht => ⟨(hformed t (mem_about.1 ht).1).value, hclear t ht⟩)
      hleaf).2, hfilter, hlast.latest]
    rfl

/-- A value with one leaf under two keys. -/
def nested (n : Int) : Value := .ofTexts [("k", .ofTexts [("l", .int n)])]

/-- Two checks of a parameter with nested values, and two of a parameter with numbers. -/
def overlapping : Entries :=
  let check (parameter : String) (value : Value) : Value :=
    .ofTexts [("type", .text "puppet"),
      ("settings", .ofTexts [("parameter", .text parameter), ("value", value)])]
  [(.text "x1", check "x" (nested 1)), (.text "y1", check "y" (.int 1)),
    (.text "x2", check "x" (nested 2)), (.text "y2", check "y" (.int 2))]

/-- A profile with the first check of each parameter, and one with the second. -/
def firstAndSecond : Entries :=
  let profile (checks : List String) : Value :=
    .ofTexts [("checks", .ofTexts (checks.map fun c => (c, .bool true)))]
  [(.text "first", profile ["x1", "y1"]), (.text "second", profile ["x2", "y2"])]

/-- The profile that is listed first counts, also if it is listed once more at the end. -/
theorem comesTo_value_overlapping :
    let index := CheckIndex.ofChecks overlapping
    let active : List Value := [.text "first", .text "unknown", .text "second", .text "first"]
    index.WellFormed ∧
      (∃ specs, (collect firstAndSecond index active).outcome = .ok specs ∧
        about "x" specs ≠ [] ∧ about "y" specs ≠ []) ∧
      ComesTo firstAndSecond index active "y" .value (.ok (.int 1)) ∧
      ∃ v, ComesTo firstAndSecond index active "x" .value (.ok v) ∧
        v.at? [.text "k", .text "l"] = some (.int 1) := by
  intro index active
  have hindex : index.WellFormed := CheckIndex.wellFormed_ofChecks (by decide)
  let spec (name parameter : String) (value : Value) : Specification :=
    { name := name, checkType := "puppet", parameter := parameter, value := value,
      controls := none, ces := none, identifiers := .null, ovalIds := .null }
  let x1 := spec "x1" "x" (nested 1)
  let x2 := spec "x2" "x" (nested 2)
  let y1 := spec "y1" "y" (.int 1)
  let y2 := spec "y2" "y" (.int 2)
  let specs := [x1, y1, x2, y2, x1, y1]
  have hspecs : (collect firstAndSecond index active).outcome = .ok specs := rfl
  have hx : about "x" specs = [x1, x2, x1] := rfl
  have hy : about "y" specs = [y1, y2, y1] := rfl
  have hxne : about "x" specs ≠ [] := by simp [hx]
  have hyne : about "y" specs ≠ [] := by simp [hy]
  refine ⟨hindex, ⟨specs, hspecs, hxne, hyne⟩, ?_, ?_⟩
  · have hscalar : ∀ s ∈ about "y" specs, ∃ x, s.value = .scalar x := by
      simp [hy, y1, y2, spec, Value.int]
    obtain ⟨last, hlast, hcomes⟩ := (comesTo_value hindex hspecs hyne).1 hscalar
    obtain rfl : y1 = last := Option.some.inj (by rw [← hlast.latest]; rfl)
    exact hcomes
  · -- On the way to the leaf all values are mappings, so it is `last` that has it.
    have hvalues : ∀ s ∈ about "x" specs, ∃ n, s.value = nested n := by
      rw [hx]
      simp only [List.forall_mem_cons]
      exact ⟨⟨1, rfl⟩, ⟨2, rfl⟩, ⟨1, rfl⟩, nofun⟩
    have hmapping : ∀ s ∈ about "x" specs, s.value.isMapping = true := by
      intro s hs
      obtain ⟨n, hn⟩ := hvalues s hs
      rw [hn]
      rfl
    have hclear : ∀ s ∈ about "x" specs, s.value.Clear [.text "k", .text "l"] := by
      intro s hs
      obtain ⟨n, hn⟩ := hvalues s hs
      rw [hn]
      refine Value.clear_mapping.2 fun w hw => ?_
      cases hw
      exact Value.clear_mapping.2 fun w _ => Value.clear_nil w
    have hleaf : ∀ s ∈ about "x" specs, ∀ w, s.value.at? [.text "k", .text "l"] = some w →
        w.isMapping = false := by
      intro s hs w hw
      obtain ⟨n, hn⟩ := hvalues s hs
      rw [hn] at hw
      cases hw
      rfl
    obtain ⟨v, hcomes, hpaths⟩ := (comesTo_value hindex hspecs hxne).2 hmapping
    obtain ⟨last, hlast, hat⟩ := hpaths _ hclear hleaf ⟨x1, by simp [hx], rfl⟩
    obtain rfl : x1 = last := Option.some.inj (by rw [← hlast.latest]; rfl)
    exact ⟨v, hcomes, hat⟩

end Resolution

end ProfileCompiler
