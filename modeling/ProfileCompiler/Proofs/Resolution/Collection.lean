import ProfileCompiler.Proofs.CheckIndex.WellFormed
import ProfileCompiler.Resolution

/-!
# The working order

The specifications of active profiles are collected from the last listed profile to the first.
So of the specifications with some property the last in working order is reached from the first
listed profile that reaches any of them (`Resolution.exists_prevails`).  Names may be unknown or
listed twice.
-/

namespace ProfileCompiler

namespace Resolution

/-- The specifications reached from the profile that a name stands for.  An unknown name stands
for none. -/
def reachedFrom (profiles : Entries) (index : CheckIndex) (name : Value) : List Specification :=
  match name.key?.bind fun k => profiles.get? k with
  | some profile => reached index profile
  | none => []

variable {profiles : Entries} {index : CheckIndex} {active : List Value}
  {specs : List Specification}

lemma reachedFrom_of_collectOne {name : Value}
    (h : (collectOne profiles index name).outcome = .ok specs) :
    specs = reachedFrom profiles index name := by
  unfold collectOne at h
  unfold reachedFrom
  cases hname : name.key? with
  | none =>
    rw [hname] at h
    cases h
  | some k =>
    rw [hname] at h
    simp only [Option.bind_some]
    cases hget : profiles.get? k with
    | some profile =>
      simp only [hget] at h
      cases h
      rfl
    | none =>
      simp only [hget] at h
      obtain ⟨known, -, h⟩ := Told.of_outcome_bind h
      obtain ⟨_, -, h⟩ := Told.of_outcome_bind h
      cases h
      rfl

/-- The specifications in working order are those of the profiles from the last to the first. -/
theorem eq_of_collect (h : (collect profiles index active).outcome = .ok specs) :
    specs = active.reverse.flatMap (reachedFrom profiles index) := by
  unfold collect at h
  generalize active.reverse = names at h ⊢
  induction names generalizing specs with
  | nil =>
    cases h
    rfl
  | cons name rest ih =>
    obtain ⟨first, hfirst, h⟩ := Told.of_outcome_bind h
    obtain ⟨more, hmore, h⟩ := Told.of_outcome_bind h
    cases h
    rw [List.flatMap_cons, ← ih hmore, ← reachedFrom_of_collectOne hfirst]

lemma find_of_mem_reached {profile : Value} {s : Specification} (hs : s ∈ reached index profile) :
    ∃ kind name, s ∈ index.find kind name := by
  unfold reached at hs
  cases profile with
  | scalar x => cases hs
  | list items => cases hs
  | mapping entries =>
    obtain ⟨kind, -, hs⟩ := List.mem_flatMap.1 hs
    unfold reachedBy at hs
    split at hs
    · obtain ⟨name, -, hs⟩ := List.mem_flatMap.1 hs
      exact ⟨kind, name, hs⟩
    · cases hs

/-- What is collected stands in the index. -/
lemma wellFormed_of_collect (hindex : index.WellFormed)
    (h : (collect profiles index active).outcome = .ok specs) : ∀ s ∈ specs, s.WellFormed := by
  intro s hs
  rw [eq_of_collect h] at hs
  obtain ⟨name, -, hs⟩ := List.mem_flatMap.1 hs
  unfold reachedFrom at hs
  split at hs
  · obtain ⟨kind, key, hs⟩ := find_of_mem_reached hs
    exact hindex kind key s hs
  · cases hs

/-! ## The first listed profile -/

variable (profiles index active specs)

/-- A specification is the last in working order of those wanted.  It is reached from the first
listed profile that reaches any of these. -/
structure Prevails (wanted : Specification → Bool) (last : Specification) : Prop where
  latest : (specs.filter wanted).getLast? = some last
  first : ∃ before name after, active = before ++ name :: after ∧
    last ∈ reachedFrom profiles index name ∧
    ∀ earlier ∈ before, ∀ s ∈ reachedFrom profiles index earlier, wanted s = false

variable {profiles index active specs}

/-- Of the specifications wanted, if there are any, one prevails. -/
theorem exists_prevails (h : (collect profiles index active).outcome = .ok specs)
    {wanted : Specification → Bool} (hwanted : specs.filter wanted ≠ []) :
    ∃ last, Prevails profiles index active specs wanted last := by
  obtain ⟨last, hlast⟩ := Option.ne_none_iff_exists'.1 (mt List.getLast?_eq_none_iff.1 hwanted)
  refine ⟨last, hlast, ?_⟩
  rw [eq_of_collect h] at hlast
  clear h hwanted
  induction active with
  | nil => cases hlast
  | cons name rest ih =>
    rw [List.reverse_cons, List.flatMap_append, List.filter_append, List.getLast?_append,
      List.flatMap_singleton] at hlast
    cases hfirst : ((reachedFrom profiles index name).filter wanted).getLast? with
    | some s =>
      rw [hfirst] at hlast
      cases hlast
      exact ⟨[], name, rest, rfl, (List.mem_filter.1 (List.mem_of_getLast? hfirst)).1, nofun⟩
    | none =>
      rw [hfirst] at hlast
      obtain ⟨before, other, after, rfl, hreached, hbefore⟩ := ih hlast
      refine ⟨name :: before, other, after, rfl, hreached, ?_⟩
      refine List.forall_mem_cons.2 ⟨fun s hs => ?_, hbefore⟩
      have hnone := List.filter_eq_nil_iff.1 (List.getLast?_eq_none_iff.1 hfirst) s hs
      exact Bool.eq_false_iff.2 hnone

end Resolution

end ProfileCompiler
