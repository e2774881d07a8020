import ProfileCompiler.Proofs.CheckIndex.WellFormed
import ProfileCompiler.Proofs.Resolution.Slots
import ProfileCompiler.Proofs.Table.Keys

/-!
# Parameters are resolved independently

Specifications of many parameters are merged in one run over the working order.  But a
specification reads and changes the assignment of its own parameter only
(`Resolution.assign_eq_ok_iff`).  So the run leaves at each parameter what the specifications of
this parameter leave when they are merged alone (`Resolution.exists_assignAll_about`), and where it
ends in a fault, the specifications of one parameter, merged alone, end in the same fault
(`Resolution.exists_of_assignAll_eq_error`).

The main result is `Resolution.resolve_independently`.
-/

namespace ProfileCompiler

/-- The assignment of a parameter after one more specification, if there was one before. -/
def Assignment.next (held : Option Assignment) (s : Specification) : Except Fault Assignment :=
  match held with
  | none => .ok (.ofSpecification s)
  | some a => a.take s

namespace Resolution

variable {specs before : List Specification} {s : Specification} {t t' u : Assignments}
  {p : String} {fault : Fault}

/-! ## One specification -/

/-- A specification puts the next assignment of its own parameter. -/
lemma assign_eq_ok_iff :
    assign t s = .ok t' ↔
      ∃ a, Assignment.next (t.get? s.parameter) s = .ok a ∧ t' = t.put s.parameter a := by
  unfold assign Assignment.next
  cases t.get? s.parameter with
  | none => simp [eq_comm]
  | some held =>
    simp only
    cases held.take s <;> simp [Except.map, eq_comm]

lemma assign_eq_error_iff :
    assign t s = .error fault ↔ Assignment.next (t.get? s.parameter) s = .error fault := by
  unfold assign Assignment.next
  cases t.get? s.parameter with
  | none => simp
  | some held =>
    simp only
    cases held.take s <;> simp [Except.map]

/-- Tables that hold the same at the parameter of a specification hold the same after it. -/
lemma exists_assign_of_get?_eq (h : assign t s = .ok t')
    (hu : u.get? s.parameter = t.get? s.parameter) :
    ∃ u', assign u s = .ok u' ∧ u'.get? s.parameter = t'.get? s.parameter := by
  obtain ⟨a, ha, rfl⟩ := assign_eq_ok_iff.1 h
  refine ⟨u.put s.parameter a, assign_eq_ok_iff.2 ⟨a, by rw [hu, ha], rfl⟩, ?_⟩
  rw [Table.get?_put_self, Table.get?_put_self]

lemma get?_assign_of_ne (h : assign t s = .ok t') (hp : s.parameter ≠ p) :
    t'.get? p = t.get? p := by
  obtain ⟨a, -, rfl⟩ := assign_eq_ok_iff.1 h
  exact Table.get?_put_of_ne (beq_eq_false_iff_ne.2 hp) a t

lemma keys_assign (h : assign t s = .ok t') :
    Table.keys t' = if (Table.keys t).any (· == s.parameter) then Table.keys t
      else Table.keys t ++ [s.parameter] := by
  obtain ⟨a, -, rfl⟩ := assign_eq_ok_iff.1 h
  exact Table.keys_put s.parameter a t

/-! ## Runs -/

lemma assignAll_cons_eq_ok_iff {rest : List Specification} :
    assignAll t (s :: rest) = .ok t' ↔
      ∃ mid, assign t s = .ok mid ∧ assignAll mid rest = .ok t' := by
  rw [assignAll]
  cases assign t s <;> simp [bind, Except.bind]

lemma assignAll_append_singleton_eq_ok_iff :
    assignAll t (specs ++ [s]) = .ok t' ↔
      ∃ mid, assignAll t specs = .ok mid ∧ assign mid s = .ok t' := by
  simp only [assignAll_eq, List.foldlM_append, List.foldlM_cons, List.foldlM_nil, bind_pure]
  cases specs.foldlM assign t <;> simp [bind, Except.bind]

/-- A run over all specifications leaves at a parameter what a run over its own leaves there. -/
lemma exists_assignAll_about (h : assignAll t specs = .ok t') (hu : u.get? p = t.get? p) :
    ∃ u', assignAll u (about p specs) = .ok u' ∧ u'.get? p = t'.get? p := by
  induction specs generalizing t u with
  | nil =>
    cases h
    exact ⟨u, rfl, hu⟩
  | cons s rest ih =>
    obtain ⟨mid, hassign, hrest⟩ := assignAll_cons_eq_ok_iff.1 h
    by_cases hp : s.parameter = p
    · subst hp
      obtain ⟨next, hnext, hsame⟩ := exists_assign_of_get?_eq hassign hu
      obtain ⟨u', hu', hlast⟩ := ih hrest hsame
      refine ⟨u', ?_, hlast⟩
      rw [about, List.filter_cons_of_pos (by simp)]
      exact assignAll_cons_eq_ok_iff.2 ⟨next, hnext, hu'⟩
    · rw [about, List.filter_cons_of_neg (by simpa using hp)]
      exact ih hrest (hu.trans (get?_assign_of_ne hassign hp).symm)

/-- A run that ends in a fault ends in it at one of the specifications. -/
lemma exists_of_assignAll_eq_error (h : assignAll t specs = .error fault) :
    ∃ before s after mid, specs = before ++ s :: after ∧ assignAll t before = .ok mid ∧
      assign mid s = .error fault := by
  induction specs generalizing t with
  | nil => cases h
  | cons s rest ih =>
    rw [assignAll] at h
    cases hassign : assign t s with
    | error e =>
      rw [hassign] at h
      cases h
      exact ⟨[], s, rest, t, rfl, rfl, hassign⟩
    | ok next =>
      rw [hassign] at h
      obtain ⟨before, other, after, mid, rfl, hbefore, hother⟩ := ih h
      exact ⟨s :: before, other, after, mid, rfl,
        assignAll_cons_eq_ok_iff.2 ⟨next, hassign, hbefore⟩, hother⟩

/-- The parameters of the assignments are those of the specifications, in order. -/
lemma keys_assignAll (h : assignAll [] specs = .ok t) :
    Table.keys t = (specs.map Specification.parameter).eraseDups := by
  induction specs using List.reverseRecOn generalizing t with
  | nil =>
    cases h
    rfl
  | append_singleton specs s ih =>
    obtain ⟨mid, hmid, hassign⟩ := assignAll_append_singleton_eq_ok_iff.1 h
    rw [keys_assign hassign, ih hmid, any_eraseDups, List.map_append, List.map_singleton,
      eraseDups_append_singleton]

/-! ## Specifications that can be merged -/

/-- Specifications can be merged. -/
def Mergeable (specs : List Specification) : Prop :=
  ∃ assignments, (merge specs).outcome = .ok assignments

lemma mergeable_iff : Mergeable specs ↔ ∃ assignments, assignAll [] specs = .ok assignments := by
  unfold Mergeable
  rw [outcome_merge]

lemma Mergeable.of_append {more : List Specification} (h : Mergeable (specs ++ more)) :
    Mergeable specs := by
  obtain ⟨assignments, h⟩ := mergeable_iff.1 h
  rw [assignAll_eq, List.foldlM_append] at h
  rw [mergeable_iff, assignAll_eq]
  cases hspecs : specs.foldlM assign [] with
  | ok mid => exact ⟨mid, rfl⟩
  | error e =>
    rw [hspecs] at h
    cases h

/-- What can be merged together can be merged parameter by parameter. -/
lemma Mergeable.about (h : Mergeable specs) (p : String) : Mergeable (about p specs) := by
  obtain ⟨assignments, h⟩ := mergeable_iff.1 h
  obtain ⟨own, hown, -⟩ := exists_assignAll_about (p := p) h rfl
  exact mergeable_iff.2 ⟨own, hown⟩

/-- The first slot, in the order in which slots are merged, in which specifications of one parameter
cannot be merged. -/
def brokenSlot? (specs : List Specification) : Option Slot :=
  Slot.all.find? fun slot => !(slot.outcome specs).isOk

/-- The specifications of a parameter, merged alone, go together up to a specification and not with
it. -/
def Breaks (before : List Specification) (s : Specification) : Prop :=
  Mergeable (about s.parameter before) ∧ ¬ Mergeable (about s.parameter (before ++ [s]))

/-- The specification that comes first in working order of those at which the specifications of
their parameter break. -/
structure FirstBreak (specs before : List Specification) (s : Specification) : Prop where
  within : before ++ [s] <+: specs
  breaks : Breaks before s
  first : ∀ earlier other, earlier ++ [other] <+: before → ¬ Breaks earlier other

lemma FirstBreak.not_mergeable (h : FirstBreak specs before s) :
    ¬ Mergeable (about s.parameter specs) := by
  obtain ⟨after, rfl⟩ := h.within
  intro hall
  rw [about_append] at hall
  exact h.breaks.2 hall.of_append

/-- Where the specifications of a parameter break, the fault is that of the first slot in which they
cannot be merged. -/
lemma exists_brokenSlot? {own : Assignments}
    (hbefore : assignAll [] (about s.parameter before) = .ok own)
    (h : assign own s = .error fault) :
    ∃ slot, brokenSlot? (about s.parameter (before ++ [s])) = some slot ∧
      fault = .unmergeable s.parameter slot.key true := by
  have hreflects : Reflects (about s.parameter before) own := by
    have haccounts := accounts_assignAll (about s.parameter before)
    rw [hbefore] at haccounts
    exact haccounts
  have hnext := assign_eq_error_iff.1 h
  cases hget : own.get? s.parameter with
  | none =>
    rw [hget] at hnext
    cases hnext
  | some a =>
    rw [hget] at hnext
    have htake : a.take s = .error fault := hnext
    obtain ⟨hne, hslots⟩ := hreflects.present _ a hget
    rw [about_about] at hne hslots
    obtain ⟨slot, hfind, hslot⟩ := Assignment.find?_of_take htake
    refine ⟨slot, ?_, Slot.eq_of_takeIn_error hslot⟩
    have houtcome : ∀ other : Slot, other.outcome (about s.parameter (before ++ [s])) =
        other.takeIn (a.slot other) s := by
      intro other
      rw [about_append_self, Slot.outcome_append_singleton hne, hslots other]
      rfl
    rw [brokenSlot?, ← hfind]
    simp only [houtcome]

/-- A run that ends in a fault ends in it where the specifications of a parameter, merged alone,
break first. -/
lemma exists_firstBreak (h : assignAll [] specs = .error fault) :
    ∃ before s slot, FirstBreak specs before s ∧
      brokenSlot? (about s.parameter (before ++ [s])) = some slot ∧
      fault = .unmergeable s.parameter slot.key true := by
  obtain ⟨before, s, after, mid, rfl, hbefore, hassign⟩ := exists_of_assignAll_eq_error h
  have hmergeable : Mergeable before := mergeable_iff.2 ⟨mid, hbefore⟩
  obtain ⟨own, hown, hget⟩ := exists_assignAll_about (u := []) (p := s.parameter) hbefore rfl
  have hbreak : assign own s = .error fault := by
    rw [assign_eq_error_iff] at hassign ⊢
    rw [hget]
    exact hassign
  obtain ⟨slot, hslot, hfault⟩ := exists_brokenSlot? hown hbreak
  refine ⟨before, s, slot, ⟨⟨after, by simp⟩, ⟨hmergeable.about _, fun hall => ?_⟩, ?_⟩, hslot,
    hfault⟩
  · -- The specification cannot be taken in after those of its parameter.
    rw [about_append_self] at hall
    obtain ⟨_, hall⟩ := mergeable_iff.1 hall
    obtain ⟨mid', hmid, hlast⟩ := assignAll_append_singleton_eq_ok_iff.1 hall
    obtain rfl : own = mid' := Except.ok.inj (hown.symm.trans hmid)
    cases hbreak.symm.trans hlast
  · rintro earlier other ⟨rest, rfl⟩ hbreaks
    exact hbreaks.2 (hmergeable.of_append.about _)

/-- Parameters are resolved independently.  Resolving ends in the fault in which collecting ends, if
it ends in one.  Otherwise, if the specifications of each parameter can be merged alone, the
assignments have the collected parameters as keys, in order of first occurrence, and hold for each
the assignment that its specifications make alone.  If those of some parameter cannot be merged
alone, the fault names the parameter of the specification in working order at which the
specifications of their parameter break first, and the first slot in which they do. -/
theorem resolve_independently (profiles : Entries) (index : CheckIndex) (active : List Value) :
    (∀ fault, (collect profiles index active).outcome = .error fault →
      (resolve profiles index active).outcome = .error fault) ∧
    ∀ specs, (collect profiles index active).outcome = .ok specs →
      ((∀ p, Mergeable (about p specs)) → ∃ assignments,
        (resolve profiles index active).outcome = .ok assignments ∧
        Table.keys assignments = (specs.map Specification.parameter).eraseDups ∧
        ∀ p own, (merge (about p specs)).outcome = .ok own →
          assignments.get? p = own.get? p) ∧
      ((∃ p, ¬ Mergeable (about p specs)) → ∃ before s slot, FirstBreak specs before s ∧
        brokenSlot? (about s.parameter (before ++ [s])) = some slot ∧
        (resolve profiles index active).outcome =
          .error (.unmergeable s.parameter slot.key true)) := by
  refine ⟨fun fault h => ?_, fun specs hspecs => ?_⟩
  · unfold resolve
    rw [Told.outcome_bind, h]
    rfl
  rw [outcome_resolve hspecs]
  cases hall : assignAll [] specs with
  | ok assignments =>
    have hmergeable : Mergeable specs := mergeable_iff.2 ⟨assignments, hall⟩
    refine ⟨fun _ => ⟨assignments, rfl, keys_assignAll hall, fun p own hown => ?_⟩,
      fun ⟨p, hp⟩ => absurd (hmergeable.about p) hp⟩
    obtain ⟨own', hown', hget⟩ := exists_assignAll_about (u := []) (p := p) hall rfl
    rw [outcome_merge] at hown
    rw [← hget, Except.ok.inj (hown.symm.trans hown')]
  | error fault =>
    obtain ⟨before, s, slot, hfirst, hslot, rfl⟩ := exists_firstBreak hall
    exact ⟨fun hp => absurd (hp s.parameter) hfirst.not_mergeable,
      fun _ => ⟨before, s, slot, hfirst, hslot, rfl⟩⟩

/-- Checks of three parameters.  The values for x cannot be merged, nor can the identifiers and the
oval-ids for y. -/
def interleaved : Entries :=
  let check (parameter : String) (value : Value) (metadata : List (String × Value)) : Value :=
    .ofTexts ([("type", .text "puppet"),
      ("settings", .ofTexts [("parameter", .text parameter), ("value", value)])] ++ metadata)
  [(.text "x1", check "x" (.list [.int 1]) []),
    (.text "y1", check "y" (.int 1) [("identifiers", .list []), ("oval-ids", .list [])]),
    (.text "z1", check "z" (.int 1) []),
    (.text "y2", check "y" (.int 2) [("identifiers", .int 2), ("oval-ids", .int 2)]),
    (.text "x2", check "x" (.int 2) [])]

/-- A profile with all checks, and one with the first check of each parameter. -/
def allAndFirst : Entries :=
  let profile (checks : List String) : Value :=
    .ofTexts [("checks", .ofTexts (checks.map fun c => (c, .bool true)))]
  [(.text "all", profile ["x1", "y1", "z1", "y2", "x2"]),
    (.text "first", profile ["x1", "y1", "z1"])]

/-- The second check of y comes before that of x, so the fault is about y, and about identifiers,
which are merged before oval-ids. -/
theorem resolve_independently_interleaved :
    let index := CheckIndex.ofChecks interleaved
    (∃ specs before s, (collect allAndFirst index [.text "all"]).outcome = .ok specs ∧
      ¬ Mergeable (about "x" specs) ∧ ¬ Mergeable (about "y" specs) ∧
      FirstBreak specs before s ∧ s.parameter = "y" ∧
      brokenSlot? (about "y" (before ++ [s])) = some (.metadata .identifiers)) ∧
    ∃ assignments, (resolve allAndFirst index [.text "first"]).outcome = .ok assignments ∧
      Table.keys assignments = ["x", "y", "z"] := by
  intro index
  let specs := ["x1", "y1", "z1", "y2", "x2"].flatMap fun name => index.find .checks (.text name)
  have hall : (collect allAndFirst index [.text "all"]).outcome = .ok specs := rfl
  have hx : ¬ Mergeable (about "x" specs) := by
    rintro ⟨_, h⟩
    have hfault : (merge (about "x" specs)).outcome = .error (.unmergeable "x" "value" true) := rfl
    cases hfault.symm.trans h
  have hy : ¬ Mergeable (about "y" specs) := by
    rintro ⟨_, h⟩
    have hfault : (merge (about "y" specs)).outcome =
        .error (.unmergeable "y" "identifiers" true) := rfl
    cases hfault.symm.trans h
  obtain ⟨before, s, slot, hfirst, hslot, hfault⟩ :=
    ((resolve_independently allAndFirst index [.text "all"]).2 specs hall).2 ⟨"x", hx⟩
  have hresolve : (resolve allAndFirst index [.text "all"]).outcome =
      .error (.unmergeable "y" "identifiers" true) := rfl
  obtain ⟨hparameter, hkey⟩ : "y" = s.parameter ∧ "identifiers" = slot.key := by
    simpa using hresolve.symm.trans hfault
  obtain rfl : slot = .metadata .identifiers := by
    revert hkey
    cases slot with
    | value => decide
    | metadata f => cases f <;> decide
  rw [← hparameter] at hslot
  refine ⟨⟨specs, before, s, hall, hx, hy, hfirst, hparameter.symm, hslot⟩, ?_⟩
  -- The first check of each parameter can be merged alone.
  let firsts := ["x1", "y1", "z1"].flatMap fun name => index.find .checks (.text name)
  have hfirsts : (collect allAndFirst index [.text "first"]).outcome = .ok firsts := rfl
  have hmergeable : Mergeable firsts := ⟨_, rfl⟩
  obtain ⟨assignments, hok, hkeys, -⟩ :=
    ((resolve_independently allAndFirst index [.text "first"]).2 firsts hfirsts).1 hmergeable.about
  exact ⟨assignments, hok, hkeys⟩

end Resolution

end ProfileCompiler
