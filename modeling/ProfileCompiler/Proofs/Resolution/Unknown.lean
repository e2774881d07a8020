import ProfileCompiler.Catalog
import ProfileCompiler.Proofs.Resolution.Collection
import ProfileCompiler.Proofs.Resolution.Slots

/-!
# Unknown profiles

An active profile that is not in the catalog reaches no specification.  So names of such profiles
could stand anywhere in the list of active profiles (`Resolution.Padded`) and change nothing.  But
the note on an unknown profile names all the known ones, which is a fault if one of their names is
no text.  `Resolution.outcome_resolve_padded_iff` says when unknown profiles are neutral.
-/

namespace ProfileCompiler

namespace Resolution

/-- The second list is the first with names inserted, at any places, that no profile has. -/
inductive Padded (profiles : Entries) : List String → List String → Prop
  | nil : Padded profiles [] []
  | keep (name : String) {names padded : List String} (h : Padded profiles names padded) :
      Padded profiles (name :: names) (name :: padded)
  | insert {name : String} (hname : profiles.has (.text name) = false)
      {names padded : List String} (h : Padded profiles names padded) :
      Padded profiles names (name :: padded)

/-- The names of all profiles are texts. -/
def NamedByTexts (profiles : Entries) : Prop := ∀ key ∈ profiles.keys, ∃ s, key = .text s

/-! ## Writing the known names -/

lemma exists_knownNames {keys : List Scalar} (h : ∀ key ∈ keys, ∃ s, key = .text s) :
    ∃ known, knownNames keys = .ok known := by
  induction keys with
  | nil => exact ⟨[], rfl⟩
  | cons key rest ih =>
    obtain ⟨⟨s, rfl⟩, hrest⟩ := List.forall_mem_cons.1 h
    obtain ⟨known, hknown⟩ := ih hrest
    refine ⟨s :: known, ?_⟩
    rw [knownNames, hknown]
    rfl

lemma knownNames_eq_error {keys : List Scalar} (h : ¬ ∀ key ∈ keys, ∃ s, key = .text s) :
    knownNames keys = .error .unwritableName := by
  induction keys with
  | nil => exact absurd (List.forall_mem_nil _) h
  | cons key rest ih =>
    cases key with
    | text s =>
      have hrest : ¬ ∀ key ∈ rest, ∃ s, key = .text s := fun hrest =>
        h (List.forall_mem_cons.2 ⟨⟨s, rfl⟩, hrest⟩)
      rw [knownNames, ih hrest]
      rfl
    | null => rfl
    | bool b => rfl
    | int n => rfl
    | float x => rfl

/-! ## Collecting -/

variable {profiles : Entries} {index : CheckIndex} {name : String} {names padded : List String}

lemma reachedFrom_of_unknown (hname : profiles.has (.text name) = false) :
    reachedFrom profiles index (.text name) = [] := by
  have hkey : (Value.text name).key? = some (.text name) := rfl
  have hget : profiles.get? (.text name) = none := by
    simpa [Table.has] using hname
  unfold reachedFrom
  rw [hkey, Option.bind_some, hget]

lemma outcome_collectOne_of_known (hname : profiles.has (.text name) = true) :
    (collectOne profiles index (.text name)).outcome =
      .ok (reachedFrom profiles index (.text name)) := by
  have hkey : (Value.text name).key? = some (.text name) := rfl
  obtain ⟨profile, hget⟩ := Option.isSome_iff_exists.1 hname
  unfold collectOne reachedFrom
  rw [hkey, Option.bind_some]
  simp only [hget, Told.outcome_pure]

/-- An unknown profile reaches nothing, if the known names can be written. -/
lemma outcome_collectOne_of_unknown (hname : profiles.has (.text name) = false) :
    (collectOne profiles index (.text name)).outcome =
      (knownNames profiles.keys).map fun _ => [] := by
  have hkey : (Value.text name).key? = some (.text name) := rfl
  have hget : profiles.get? (.text name) = none := by
    simpa [Table.has] using hname
  unfold collectOne
  rw [hkey]
  simp only [hget, Told.outcome_bind, Told.outcome_of]
  cases knownNames profiles.keys <;> rfl

lemma outcome_collectOne_eq_ok (h : NamedByTexts profiles ∨ profiles.has (.text name) = true) :
    (collectOne profiles index (.text name)).outcome =
      .ok (reachedFrom profiles index (.text name)) := by
  by_cases hname : profiles.has (.text name) = true
  · exact outcome_collectOne_of_known hname
  · have hunknown : profiles.has (.text name) = false := Bool.eq_false_iff.2 hname
    obtain ⟨known, hknown⟩ := exists_knownNames (h.resolve_right hname)
    rw [outcome_collectOne_of_unknown hunknown, reachedFrom_of_unknown hunknown, hknown]
    rfl

lemma outcome_collectOne_eq_error (hprofiles : ¬ NamedByTexts profiles)
    (hname : profiles.has (.text name) = false) :
    (collectOne profiles index (.text name)).outcome = .error .unwritableName := by
  rw [outcome_collectOne_of_unknown hname, knownNames_eq_error hprofiles]
  rfl

lemma outcome_collectInOrder_eq_ok {active : List Value}
    (h : ∀ name ∈ active,
      (collectOne profiles index name).outcome = .ok (reachedFrom profiles index name)) :
    (collectInOrder profiles index active).outcome =
      .ok (active.flatMap (reachedFrom profiles index)) := by
  induction active with
  | nil => rfl
  | cons name rest ih =>
    obtain ⟨hname, hrest⟩ := List.forall_mem_cons.1 h
    unfold collectInOrder
    rw [Told.outcome_bind, hname, List.flatMap_cons]
    show (collectInOrder profiles index rest >>= fun more => pure (_ ++ more)).outcome = _
    rw [Told.outcome_bind, ih hrest]
    rfl

/-- If the profiles that cannot be collected end in the same fault, collecting ends in it. -/
lemma outcome_collectInOrder_eq_error {active : List Value} {fault : Fault}
    (h : ∀ name ∈ active,
      (collectOne profiles index name).outcome = .ok (reachedFrom profiles index name) ∨
        (collectOne profiles index name).outcome = .error fault)
    (hsome : ∃ name ∈ active, (collectOne profiles index name).outcome = .error fault) :
    (collectInOrder profiles index active).outcome = .error fault := by
  induction active with
  | nil =>
    obtain ⟨_, hmem, -⟩ := hsome
    cases hmem
  | cons name rest ih =>
    obtain ⟨hname, hrest⟩ := List.forall_mem_cons.1 h
    unfold collectInOrder
    rw [Told.outcome_bind]
    rcases hname with hname | hname
    · have hlater : ∃ other ∈ rest, (collectOne profiles index other).outcome = .error fault := by
        obtain ⟨other, hmem, hother⟩ := hsome
        rcases List.mem_cons.1 hmem with rfl | hmem
        · cases hname.symm.trans hother
        · exact ⟨other, hmem, hother⟩
      rw [hname]
      show (collectInOrder profiles index rest >>= fun more => pure (_ ++ more)).outcome = _
      rw [Told.outcome_bind, ih hrest hlater]
      rfl
    · rw [hname]
      rfl

/-- Profiles can be collected if they are all known, or if the known ones can be written. -/
lemma outcome_collect_eq_ok
    (h : NamedByTexts profiles ∨ ∀ name ∈ names, profiles.has (.text name) = true) :
    (collect profiles index (names.map .text)).outcome =
      .ok ((names.map Value.text).reverse.flatMap (reachedFrom profiles index)) := by
  refine outcome_collectInOrder_eq_ok fun v hv => ?_
  obtain ⟨name, hname, rfl⟩ := List.mem_map.1 (List.mem_reverse.1 hv)
  exact outcome_collectOne_eq_ok (h.imp_right fun hknown => hknown name hname)

lemma outcome_collect_eq_error (hprofiles : ¬ NamedByTexts profiles)
    (hunknown : ∃ name ∈ names, profiles.has (.text name) = false) :
    (collect profiles index (names.map .text)).outcome = .error .unwritableName := by
  refine outcome_collectInOrder_eq_error (fun v hv => ?_) ?_
  · obtain ⟨name, -, rfl⟩ := List.mem_map.1 (List.mem_reverse.1 hv)
    cases hname : profiles.has (.text name) with
    | true => exact Or.inl (outcome_collectOne_of_known hname)
    | false => exact Or.inr (outcome_collectOne_eq_error hprofiles hname)
  · obtain ⟨name, hmem, hname⟩ := hunknown
    exact ⟨.text name, List.mem_reverse.2 (List.mem_map_of_mem hmem),
      outcome_collectOne_eq_error hprofiles hname⟩

/-! ## Padding -/

namespace Padded

/-- A list with nothing inserted is the same list. -/
lemma eq_or_exists_unknown (h : Padded profiles names padded) :
    padded = names ∨ ∃ name ∈ padded, profiles.has (.text name) = false := by
  induction h with
  | nil => exact Or.inl rfl
  | keep name _ ih =>
    refine ih.imp (congrArg (name :: ·)) ?_
    rintro ⟨other, hmem, hother⟩
    exact ⟨other, List.mem_cons_of_mem _ hmem, hother⟩
  | insert hname _ _ => exact Or.inr ⟨_, List.mem_cons_self, hname⟩

lemma flatMap_reachedFrom (h : Padded profiles names padded) :
    (padded.map Value.text).reverse.flatMap (reachedFrom profiles index) =
      (names.map Value.text).reverse.flatMap (reachedFrom profiles index) := by
  induction h with
  | nil => rfl
  | keep name _ ih => simp [ih]
  | insert hname _ ih => simp [ih, reachedFrom_of_unknown hname]

end Padded

/-- The faults of merging are about parameters and never about names that cannot be written. -/
lemma outcome_merge_ne (specs : List Specification) :
    (merge specs).outcome ≠ .error .unwritableName := by
  intro h
  have haccounts := accounts_assignAll specs
  rw [← outcome_merge, h] at haccounts
  obtain ⟨parameter, slot, hslot⟩ := haccounts
  cases eq_of_outcome_about_error hslot

/-- Unknown profiles are neutral if there are none, if the names of all profiles are texts, or if
an unknown one was listed before.  Where they are not, resolving ends in a fault. -/
theorem outcome_resolve_padded_iff (profiles : Entries) (index : CheckIndex)
    {names padded : List String} (h : Padded profiles names padded) :
    ((resolve profiles index (padded.map .text)).outcome =
        (resolve profiles index (names.map .text)).outcome ↔
      padded = names ∨ NamedByTexts profiles ∨
        ∃ name ∈ names, profiles.has (.text name) = false) ∧
    (padded ≠ names → ¬ NamedByTexts profiles →
      (resolve profiles index (padded.map .text)).outcome = .error .unwritableName) := by
  unfold resolve
  rw [Told.outcome_bind, Told.outcome_bind]
  by_cases hprofiles : NamedByTexts profiles
  · -- Nothing stops the collecting, and the inserted names reach nothing.
    have hsame : (collect profiles index (padded.map .text)).outcome =
        (collect profiles index (names.map .text)).outcome := by
      rw [outcome_collect_eq_ok (Or.inl hprofiles), outcome_collect_eq_ok (Or.inl hprofiles),
        h.flatMap_reachedFrom]
    rw [hsame]
    exact ⟨iff_of_true rfl (Or.inr (Or.inl hprofiles)), fun _ hnot => absurd hprofiles hnot⟩
  by_cases hpadded : padded = names
  · rw [hpadded]
    exact ⟨iff_of_true rfl (Or.inl rfl), fun hnot => absurd rfl hnot⟩
  rw [outcome_collect_eq_error hprofiles (h.eq_or_exists_unknown.resolve_left hpadded)]
  refine ⟨?_, fun _ _ => rfl⟩
  -- The padded list ends in the fault, so the other one has to end in it too.
  by_cases hnames : ∃ name ∈ names, profiles.has (.text name) = false
  · rw [outcome_collect_eq_error hprofiles hnames]
    exact iff_of_true rfl (Or.inr (Or.inr hnames))
  · have hknown : ∀ name ∈ names, profiles.has (.text name) = true := by simpa using hnames
    rw [outcome_collect_eq_ok (Or.inr hknown)]
    refine iff_of_false (fun heq => outcome_merge_ne _ heq.symm) ?_
    rintro (hsame | htexts | hunknown)
    · exact hpadded hsame
    · exact hprofiles htexts
    · exact hnames hunknown

/-- A document in which the name of a profile is a number. -/
def numbered : List (String × Value) :=
  [("a", .ofTexts [("version", .text "2.0.0"),
    ("profiles", .mapping [(.int 1, .mapping [])])])]

/-- The document is loaded, and with it an unknown profile ends in a fault. -/
theorem outcome_resolve_padded_iff_numbered :
    ∃ c count, (Catalog.load (Site.toHost default) numbered .empty none).1.outcome =
        .ok (c, count) ∧ Padded c.profiles [] ["x"] ∧
      ∀ index, (resolve c.profiles index [.text "x"]).outcome = .error .unwritableName ∧
        ¬ (resolve c.profiles index [.text "x"]).outcome =
          (resolve c.profiles index []).outcome := by
  have hloaded : (Catalog.load (Site.toHost default) numbered .empty none).1.outcome.toOption.any
      fun result => !result.1.profiles.has (.text "x") &&
        !result.1.profiles.keys.all (·.text?.isSome) := by decide +kernel
  cases hload : (Catalog.load (Site.toHost default) numbered .empty none).1.outcome with
  | error fault =>
    rw [hload] at hloaded
    cases hloaded
  | ok result =>
    obtain ⟨c, count⟩ := result
    rw [hload] at hloaded
    obtain ⟨hx, hkeys⟩ : c.profiles.has (.text "x") = false ∧
        c.profiles.keys.all (·.text?.isSome) = false := by
      simpa [Except.toOption] using hloaded
    have hprofiles : ¬ NamedByTexts c.profiles := by
      intro htexts
      refine Bool.false_ne_true (hkeys.symm.trans (List.all_eq_true.2 fun key hkey => ?_))
      obtain ⟨s, rfl⟩ := htexts key hkey
      rfl
    have hpadded : Padded c.profiles [] ["x"] := .insert hx .nil
    refine ⟨c, count, rfl, hpadded, fun index => ?_⟩
    obtain ⟨hiff, hfault⟩ := outcome_resolve_padded_iff c.profiles index hpadded
    refine ⟨hfault (by simp) hprofiles, fun hsame => ?_⟩
    rcases hiff.1 hsame with hsame | htexts | ⟨_, hmem, -⟩
    · cases hsame
    · exact hprofiles htexts
    · cases hmem

end Resolution

end ProfileCompiler
