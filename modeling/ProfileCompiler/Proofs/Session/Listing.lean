import Mathlib.Data.List.Forall2
import ProfileCompiler.Proofs.Table
import ProfileCompiler.Session.Compilation

/-!
# What a compilation sees of the active profiles

A host may give the active profiles in two ways: as a list, or as the only profile of the list.
A compilation comes to the same in both (`assignments?_listing_congr`), although the answer
under the enforcement key may be read a second time, as an inline document.  Such a document
counts only where it is a mapping; but a mapping is no name of a profile, and then the
compilation fails in any case.

Otherwise a compilation reads of the host the facts and the modules, and nothing that depends
on the active profiles (`load_congr`).
-/

namespace ProfileCompiler

/-! ## What loading reads of a host -/

section Host

variable {host host' : Host}

lemma Confinement.moduleApplies_congr (hmodules : host.modules = host'.modules) :
    Confinement.moduleApplies host = Confinement.moduleApplies host' := by
  have hfetch : Inquiry.modules host = Inquiry.modules host' := by
    funext inventory
    unfold Inquiry.modules
    rw [hmodules]
  funext name required
  unfold Confinement.moduleApplies
  rw [hfetch]

lemma Confinement.holds_congr (hfact : host.fact = host'.fact)
    (hmodules : host.modules = host'.modules) :
    Confinement.holds host = Confinement.holds host' := by
  have hask : Inquiry.fact host = Inquiry.fact host' := by
    funext name inventory
    unfold Inquiry.fact
    rw [hfact]
  funext confine key expected
  unfold Confinement.holds
  rw [hask, Confinement.moduleApplies_congr hmodules]

lemma Confinement.allHold_congr (hfact : host.fact = host'.fact)
    (hmodules : host.modules = host'.modules) (confine : Entries)
    (conditions : List (Scalar × Value)) :
    Confinement.allHold host confine conditions =
      Confinement.allHold host' confine conditions := by
  induction conditions with
  | nil => rfl
  | cons condition rest ih =>
    unfold Confinement.allHold
    rw [ih, Confinement.holds_congr hfact hmodules]

lemma Confinement.judge_congr (hfact : host.fact = host'.fact)
    (hmodules : host.modules = host'.modules) (location : String)
    (entries : List (Scalar × Value)) :
    Confinement.judge host location entries = Confinement.judge host' location entries := by
  have happlies : Confinement.applies host location = Confinement.applies host' location := by
    funext name body
    unfold Confinement.applies
    simp only [Confinement.allHold_congr hfact hmodules]
  induction entries with
  | nil => rfl
  | cons entry rest ih =>
    unfold Confinement.judge
    rw [ih, happlies]

lemma Catalog.importSections_congr (hfact : host.fact = host'.fact)
    (hmodules : host.modules = host'.modules) (source : String) (document : Entries)
    (sections : List CatalogSection) (c : Catalog) :
    Catalog.importSections host source document sections c =
      Catalog.importSections host' source document sections c := by
  have happly : Confinement.apply host source = Confinement.apply host' source := by
    funext entries
    unfold Confinement.apply
    rw [Confinement.judge_congr hfact hmodules]
  induction sections generalizing c with
  | nil => rfl
  | cons s more ih =>
    unfold Catalog.importSections
    simp only [happly, ih]

/-- Loading documents reads the facts and the modules of a host and nothing else. -/
lemma Catalog.load_congr (hfact : host.fact = host'.fact)
    (hmodules : host.modules = host'.modules) (documents : List (String × Value))
    (c : Catalog) :
    Catalog.load host documents c = Catalog.load host' documents c := by
  have hone : Catalog.loadDocument host = Catalog.loadDocument host' := by
    funext source document c
    unfold Catalog.loadDocument
    simp only [Catalog.importSections_congr hfact hmodules]
  induction documents generalizing c with
  | nil => rfl
  | cons document rest ih =>
    unfold Catalog.load
    simp only [hone, ih]

end Host

/-! ## Documents that do not count -/

/-- One document twice, or two documents that are no mappings and are passed over. -/
def Interchangeable (d d' : String × Value) : Prop :=
  d = d' ∨ (d.2.isMapping = false ∧ d'.2.isMapping = false)

namespace Catalog

lemma loadDocument_of_not_mapping {host : Host} {source : String} {document : Value}
    (h : document.isMapping = false) (c : Catalog) :
    loadDocument host source document c = pure ⟨c, .ok false⟩ := by
  cases document with
  | scalar s => rfl
  | list items => rfl
  | mapping entries => cases h

/-- Documents that do not count may be exchanged. -/
lemma load_of_interchangeable {host : Host} {documents documents' : List (String × Value)}
    (h : List.Forall₂ Interchangeable documents documents') (c : Catalog) :
    load host documents c = load host documents' c := by
  induction h generalizing c with
  | nil => rfl
  | cons hd _ ih =>
    rename_i d d' rest rest' _
    unfold load
    rcases hd with rfl | ⟨hd, hd'⟩
    · simp only [ih]
    · simp only [loadDocument_of_not_mapping hd, loadDocument_of_not_mapping hd', ih]

end Catalog

/-! ## Giving the active profiles in two ways -/

namespace Environment

/-- The surroundings in which the host answers the enforcement key so and keeps all its other
answers. -/
def listing (env : Environment) (answer : Except Fault Answer) : Environment :=
  { env with
    host :=
      { env.host with
        lookup := fun key => if key = env.enforcementKey then answer else env.host.lookup key } }

variable (env : Environment)

lemma activeProfiles_outcome :
    env.activeProfiles.outcome = (env.host.lookup env.enforcementKey).map profileList := by
  unfold activeProfiles hostInline
  rw [Told.outcome_bind]
  cases env.host.lookup env.enforcementKey <;> rfl

@[simp] lemma activeProfiles_listing (answer : Except Fault Answer) :
    (env.listing answer).activeProfiles.outcome = answer.map profileList := by
  rw [activeProfiles_outcome]
  simp only [listing, if_true]

/-- The inline document that an answer gives. -/
def document (answer : Answer) : Value := answer.getD (.mapping [])

/-- Two answers that list the same profiles are the same answer, or their documents do not
count, or the list names no profiles. -/
lemma eq_or_of_profileList_eq {a a' : Answer} {profiles : List Value} (hne : profiles ≠ [])
    (ha : profileList a = profiles) (ha' : profileList a' = profiles) :
    a = a' ∨ ((document a).isMapping = false ∧ (document a').isMapping = false) ∨
      ∃ p ∈ profiles, p.key? = none := by
  have hshape : ∀ b, profileList b = profiles →
      b = some (.list profiles) ∨ ∃ p, profiles = [p] ∧ b = some p ∧ p.items? = none := by
    rintro (_ | b) hb
    · exact absurd hb.symm hne
    · cases b with
      | list items =>
        obtain rfl : items = profiles := hb
        exact Or.inl rfl
      | mapping entries => exact Or.inr ⟨_, hb.symm, rfl, rfl⟩
      | scalar s =>
        refine Or.inr ⟨.scalar s, ?_, rfl, rfl⟩
        rw [profileList] at hb
        · split at hb
          · exact absurd hb.symm hne
          · exact hb.symm
        · intro items h
          cases h
  -- One answer is the list and the other its only item.  A name makes no document in either way,
  -- and a mapping, which makes one, is no name.
  have hmixed : ∀ p, profiles = [p] → p.items? = none →
      ((document (some (.list profiles))).isMapping = false ∧
        (document (some p)).isMapping = false) ∨ ∃ p ∈ profiles, p.key? = none := by
    rintro p rfl hp
    cases p with
    | scalar s => exact Or.inl ⟨rfl, rfl⟩
    | list items => cases hp
    | mapping entries => exact Or.inr ⟨_, List.mem_singleton_self _, rfl⟩
  rcases hshape a ha with rfl | ⟨p, hp, rfl, hitems⟩ <;>
    rcases hshape a' ha' with rfl | ⟨p', hp', rfl, hitems'⟩
  · exact Or.inl rfl
  · exact Or.inr (hmixed p' hp' hitems')
  · exact Or.inr ((hmixed p hp hitems).imp_left And.symm)
  · obtain rfl : p = p' := List.head_eq_of_cons_eq (hp.symm.trans hp')
    exact Or.inl rfl

/-- Where inline documents come from: a source of their own, or else the host. -/
def inlineFrom (lookup : Option InlineSource) : InlineSource := lookup.getD env.hostInline

end Environment

namespace Compilation

/-- The assignments from which the map of the given profiles is made. -/
def assignments? (env : Environment) (inline : InlineSource) (profiles : List Value) :
    Option Assignments :=
  match (run env inline profiles dumpKey).outcome with
  | .ok (.map assignments) => some assignments
  | _ => none

lemma catalog_outcome (env : Environment) (inline : InlineSource) :
    (catalog env inline).outcome =
      env.documents.outcome.bind fun found =>
        (askInline inline inlineDocuments).outcome.bind fun inlined =>
          (Catalog.load env.host (found ++ inlined) .empty none).1.outcome.map Prod.fst := by
  unfold catalog
  rw [Told.outcome_bind]
  show Except.bind _ _ = _
  congr 1
  funext found
  rw [Told.outcome_bind]
  show Except.bind _ _ = _
  congr 1
  funext inlined
  rw [Told.outcome_bind]
  cases (Catalog.load env.host (found ++ inlined) .empty none).1.outcome <;> rfl

/-- The outcome of a compilation for any key but the two catalog keys. -/
lemma run_outcome_of_not_catalog {key : String} (hkey : isCatalogKey key = false)
    (env : Environment) (inline : InlineSource) (profiles : List Value) :
    (run env inline profiles key).outcome =
      (catalog env inline).outcome.bind fun c =>
        (CheckIndex.build c.checks c.ces).outcome.bind fun index =>
          (Resolution.resolve c.profiles index profiles).outcome.map Product.map := by
  have hprofiles : key ≠ profilesKey := by
    rintro rfl
    exact absurd hkey (by decide)
  have hcatalog : key ≠ catalogKey := by
    rintro rfl
    exact absurd hkey (by decide)
  unfold run
  rw [Told.outcome_bind]
  show Except.bind _ _ = _
  congr 1
  funext c
  rw [if_neg hprofiles, if_neg hcatalog, Told.outcome_bind]
  show Except.bind _ _ = _
  congr 1
  funext index
  rw [Told.outcome_bind]
  cases (Resolution.resolve c.profiles index profiles).outcome <;> rfl

end Compilation

/-! ## The assignments do not depend on the way -/

/-- Where an active profile is no name, resolving fails. -/
lemma Resolution.resolve_of_no_name (profiles : Entries) (index : CheckIndex)
    {active : List Value} (h : ∃ p ∈ active, p.key? = none) :
    ∃ fault, (resolve profiles index active).outcome = .error fault := by
  have hcollect : ∀ names : List Value, (∃ p ∈ names, p.key? = none) →
      ∃ fault, (collectInOrder profiles index names).outcome = .error fault := by
    intro names
    induction names with
    | nil =>
      rintro ⟨p, hp, -⟩
      cases hp
    | cons name rest ih =>
      rintro ⟨p, hp, hkey⟩
      unfold collectInOrder
      rw [Told.outcome_bind]
      -- Whichever name fails first, the collection fails.
      cases hone : (collectOne profiles index name).outcome with
      | error fault => exact ⟨fault, rfl⟩
      | ok first =>
        rcases List.mem_cons.1 hp with rfl | hp
        · -- What is no name cannot be collected.
          rw [collectOne, hkey] at hone
          cases hone
        · obtain ⟨fault, hfault⟩ := ih ⟨p, hp, hkey⟩
          refine ⟨fault, ?_⟩
          show ((collectInOrder profiles index rest >>= fun more =>
            pure (first ++ more) : Told _)).outcome = _
          rw [Told.outcome_bind, hfault]
          rfl
  obtain ⟨p, hp, hkey⟩ := h
  obtain ⟨fault, hfault⟩ := hcollect active.reverse ⟨p, List.mem_reverse.2 hp, hkey⟩
  refine ⟨fault, ?_⟩
  unfold resolve collect
  rw [Told.outcome_bind, hfault]
  rfl

namespace Compilation

variable {env : Environment}

lemma assignments?_of_no_name {inline : InlineSource} {profiles : List Value}
    (h : ∃ p ∈ profiles, p.key? = none) : assignments? env inline profiles = none := by
  unfold assignments?
  rw [run_outcome_of_not_catalog (by decide)]
  cases (catalog env inline).outcome with
  | error fault => rfl
  | ok c =>
    cases hindex : (CheckIndex.build c.checks c.ces).outcome with
    | error fault => simp only [Except.bind, hindex]
    | ok index =>
      obtain ⟨fault, hfault⟩ := Resolution.resolve_of_no_name c.profiles index h
      simp only [Except.bind, hindex, hfault, Except.map]

/-- Asking for inline documents under sources whose answers are the same or do not count. -/
lemma askInline_interchangeable {inline inline' : InlineSource}
    (h : ∀ key, (inline key).outcome = (inline' key).outcome ∨
      ∃ a a', (inline key).outcome = .ok a ∧ (inline' key).outcome = .ok a' ∧
        (Environment.document a).isMapping = false ∧ (Environment.document a').isMapping = false)
    (keys : List (String × String)) :
    (∃ fault, (askInline inline keys).outcome = .error fault ∧
        (askInline inline' keys).outcome = .error fault) ∨
      ∃ documents documents', (askInline inline keys).outcome = .ok documents ∧
        (askInline inline' keys).outcome = .ok documents' ∧
        List.Forall₂ Interchangeable documents documents' := by
  induction keys with
  | nil => exact Or.inr ⟨[], [], rfl, rfl, .nil⟩
  | cons entry keys ih =>
    obtain ⟨key, source⟩ := entry
    have hunfold : ∀ inl : InlineSource, (askInline inl ((key, source) :: keys)).outcome =
        (inl key).outcome.bind fun a =>
          (askInline inl keys).outcome.map fun more =>
            (source, Environment.document a) :: more := by
      intro inl
      rw [askInline, Told.outcome_bind]
      show Except.bind _ _ = _
      congr 1
      funext a
      rw [Told.outcome_bind]
      cases (askInline inl keys).outcome <;> rfl
    rw [hunfold inline, hunfold inline']
    -- Answers that do not count still make a document each, which the catalog passes over.
    rcases h key with heq | ⟨a, a', ha, ha', hdoc, hdoc'⟩
    · rw [heq]
      cases (inline' key).outcome with
      | error fault => exact Or.inl ⟨fault, rfl, rfl⟩
      | ok a =>
        rcases ih with ⟨fault, hf, hf'⟩ | ⟨ds, ds', hds, hds', hrel⟩
        · exact Or.inl ⟨fault, by rw [hf]; rfl, by rw [hf']; rfl⟩
        · exact Or.inr ⟨_, _, by rw [hds]; rfl, by rw [hds']; rfl, .cons (Or.inl rfl) hrel⟩
    · rw [ha, ha']
      rcases ih with ⟨fault, hf, hf'⟩ | ⟨ds, ds', hds, hds', hrel⟩
      · exact Or.inl ⟨fault, by rw [hf]; rfl, by rw [hf']; rfl⟩
      · exact Or.inr ⟨_, _, by rw [hds]; rfl, by rw [hds']; rfl, .cons (Or.inr ⟨hdoc, hdoc'⟩) hrel⟩

/-- The catalog is the same where the answer under the enforcement key makes no document that
counts. -/
lemma catalog_listing_congr (lookup : Option InlineSource) {a a' : Answer}
    (h : (Environment.document a).isMapping = false)
    (h' : (Environment.document a').isMapping = false) :
    (catalog (env.listing (.ok a)) ((env.listing (.ok a)).inlineFrom lookup)).outcome =
      (catalog (env.listing (.ok a')) ((env.listing (.ok a')).inlineFrom lookup)).outcome := by
  have hsources : ∀ key,
      (((env.listing (.ok a)).inlineFrom lookup) key).outcome =
        (((env.listing (.ok a')).inlineFrom lookup) key).outcome ∨
      ∃ b b', (((env.listing (.ok a)).inlineFrom lookup) key).outcome = .ok b ∧
        (((env.listing (.ok a')).inlineFrom lookup) key).outcome = .ok b' ∧
        (Environment.document b).isMapping = false ∧
        (Environment.document b').isMapping = false := by
    intro key
    cases lookup with
    | some inline => exact Or.inl rfl
    | none =>
      -- The answers differ under the enforcement key alone, where they make no document to count.
      by_cases hkey : key = env.enforcementKey
      · refine Or.inr ⟨a, a', ?_, ?_, h, h'⟩ <;>
          simp only [Environment.inlineFrom, Option.getD_none, Environment.hostInline,
            Environment.listing, hkey, if_true]
      · refine Or.inl ?_
        simp only [Environment.inlineFrom, Option.getD_none, Environment.hostInline,
          Environment.listing, hkey, if_false]
  rw [catalog_outcome, catalog_outcome]
  show Except.bind env.documents.outcome _ = Except.bind env.documents.outcome _
  congr 1
  funext found
  rcases askInline_interchangeable hsources inlineDocuments with
    ⟨fault, hf, hf'⟩ | ⟨ds, ds', hds, hds', hrel⟩
  · rw [hf, hf']
    rfl
  · rw [hds, hds']
    -- The same documents are found in files, so the two loads go through interchangeable documents.
    have hfound : List.Forall₂ Interchangeable found found :=
      List.forall₂_same.2 fun d _ => Or.inl rfl
    have hall : List.Forall₂ Interchangeable (found ++ ds) (found ++ ds') :=
      List.rel_append hfound hrel
    have hfact : (env.listing (.ok a)).host.fact = (env.listing (.ok a')).host.fact := rfl
    have hmodules : (env.listing (.ok a)).host.modules = (env.listing (.ok a')).host.modules :=
      rfl
    show Except.map _ _ = Except.map _ _
    rw [Catalog.load_of_interchangeable hall, Catalog.load_congr hfact hmodules]

/-- The assignments are a matter of the profiles listed and not of the way in which the host
lists them. -/
theorem assignments?_listing_congr (lookup : Option InlineSource)
    {p p' : Except Fault Answer} {profiles : List Value} (hne : profiles ≠ [])
    (hp : p.map Environment.profileList = .ok profiles)
    (hp' : p'.map Environment.profileList = .ok profiles) :
    assignments? (env.listing p) ((env.listing p).inlineFrom lookup) profiles =
      assignments? (env.listing p') ((env.listing p').inlineFrom lookup) profiles := by
  cases p with
  | error fault => cases hp
  | ok a =>
    cases p' with
    | error fault => cases hp'
    | ok a' =>
      have ha : Environment.profileList a = profiles := by simpa [Except.map] using hp
      have ha' : Environment.profileList a' = profiles := by simpa [Except.map] using hp'
      rcases Environment.eq_or_of_profileList_eq hne ha ha' with rfl | ⟨hdoc, hdoc'⟩ | hname
      · rfl
      · unfold assignments?
        rw [run_outcome_of_not_catalog (by decide), run_outcome_of_not_catalog (by decide),
          catalog_listing_congr lookup hdoc hdoc']
      · rw [assignments?_of_no_name hname, assignments?_of_no_name hname]

end Compilation

end ProfileCompiler
