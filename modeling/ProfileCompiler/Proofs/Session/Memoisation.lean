import ProfileCompiler.Proofs.Session.Calls
import ProfileCompiler.Proofs.Session.Reentrancy

/-!
# Runs with the same profiles

While the active profiles stay the same, one map answers every key.  The call that first
compiles with success caches it (`Session.rests_of_compiles`), and from then on the cache is at
rest (`Session.Rests`): no call of any kind changes an entry of it, whatever has become of the
host and of the mode meanwhile.  Only the two catalog keys are still compiled for, and their
compilations make no map.

## Main results

* `enforceFrom_of_rests`: what a call comes to while the cache is at rest.
* `entries_step`, `entries_finish`: steps and runs that spare the cache leave it at rest.
* `run_after_compilation`: a run from its first successful compilation on.
-/

namespace ProfileCompiler

namespace Session

/-! ## Answers from a map -/

/-- The answer to a key from a compiled map.  The dump key is answered with the whole map, and
a key that the map knocks out has no answer. -/
def answerFrom (key : String) (map : Entries) : Answer :=
  if key = Compilation.dumpKey then some (.mapping map)
  else if Table.has (.text (knockoutMark ++ key)) map then none
  else Table.get? (.text key) map

lemma select_eq_answerFrom (key : String) (map : Entries) :
    select key (.mapping map) = .ok (answerFrom key map) := by
  unfold select answerFrom
  split
  · rfl
  · simp only [occurs]
    cases Table.has (.text (knockoutMark ++ key)) map with
    | true => rfl
    | false =>
      cases hget : Table.get? (.text key) map with
      | none => simp [Table.has, hget, bind, Except.bind]
      | some v => simp [Table.has, hget, bind, Except.bind]

/-! ## A cache at rest -/

/-- The map of the profiles is cached, and the lock is released. -/
structure Rests (profiles : List Value) (map : Entries) (entries : Table String Value) : Prop where
  cached : cachedFor? profiles entries = some (.mapping map)
  released : entries.get? lockKey = some (.bool false)

variable {env : Environment} {reentry : Reentry} {inline : InlineSource} {key : String}
  {profiles : List Value} {map : Entries} {entries : Table String Value} {s : Session}

lemma Rests.lockHeld (h : Rests profiles map entries) : lockHeld entries = false := by
  rw [Session.lockHeld, h.released]
  rfl

variable (inline key) in
/-- Where the map of its profiles is cached a call stores nothing.  It begins a compilation for
a catalog key and for no other key. -/
lemma course_of_rests (h : Rests profiles map entries)
    (hlist : env.activeProfiles.outcome = .ok profiles) (hne : profiles ≠ []) :
    (course env inline key entries).made = none ∧
      (Compilation.isCatalogKey key = false →
        course env inline key entries = ⟨.ok (answerFrom key map), none, 0⟩) ∧
      (Compilation.isCatalogKey key = true → (course env inline key entries).compiles = 1) := by
  obtain ⟨p, ps, rfl⟩ := List.exists_cons_of_ne_nil hne
  obtain ⟨mapKey, hmapKey, hget⟩ := Option.bind_eq_some_iff.1 h.cached
  unfold course cachedMap?
  rw [hlist]
  simp only [hmapKey, hget]
  cases hkey : Compilation.isCatalogKey key with
  | false =>
    simp only [Bool.false_eq_true, if_false, select_eq_answerFrom]
    exact ⟨trivial, fun _ => trivial, nofun⟩
  | true =>
    simp only [if_true]
    exact ⟨made_of_catalog env inline _ hkey mapKey, nofun,
      fun _ => compiles_compileCourse env inline key _ mapKey⟩

/-- A catalog key is not reserved. -/
lemma isReserved_of_catalog (hkey : Compilation.isCatalogKey key = true) :
    isReserved key = false := by
  have hkeys : key = Compilation.profilesKey ∨ key = Compilation.catalogKey := by
    simpa [Compilation.isCatalogKey] using hkey
  rcases hkeys with rfl | rfl <;> decide

variable (reentry inline key) in
/-- While the cache is at rest a call leaves every entry as it is.  A catalog key is compiled
for; any other key is answered from the map, without a compilation. -/
theorem enforceFrom_of_rests (h : Rests profiles map s.cache.entries)
    (hlist : env.activeProfiles.outcome = .ok profiles) (hne : profiles ≠ []) :
    (enforceFrom env reentry inline key s).2.cache.entries = s.cache.entries ∧
      (isReserved key = false → Compilation.isCatalogKey key = false →
        (enforceFrom env reentry inline key s).1 = answerFrom key map ∧
          (enforceFrom env reentry inline key s).2.compileCount = s.compileCount) ∧
      (Compilation.isCatalogKey key = true →
        (enforceFrom env reentry inline key s).2.compileCount = s.compileCount + 1) := by
  obtain ⟨hanswer, hentries, hcount, -⟩ := enforceFrom_serves env inline key reentry s
  obtain ⟨hmade, hother, hcatalog⟩ :=
    course_of_rests inline key h hlist hne
  have hadmits : isReserved key = false → admits key s.cache.entries = true := by
    intro hreserved
    rw [admits, hreserved, h.lockHeld]
    rfl
  refine ⟨?_, ?_, ?_⟩
  · rw [hentries, deposits]
    split
    · rw [Course.writes, hmade, List.nil_append, Table.putAll_cons, Table.putAll_cons,
        Table.putAll_nil, Table.put_put, Table.put_of_get? h.released]
    · rfl
  · intro hreserved hkey
    rw [hanswer, hcount, reply, compilesOf, if_pos (hadmits hreserved),
      if_pos (hadmits hreserved), hother hkey]
    exact ⟨rfl, rfl⟩
  · intro hkey
    rw [hcount, compilesOf, if_pos (hadmits (isReserved_of_catalog hkey)), hcatalog hkey]

/-! ## The first compilation -/

variable (env reentry inline key s)

/-- A call compiles with success: it begins a compilation, and no fault ends it. -/
def Compiles : Prop :=
  (enforceFrom env reentry inline key s).2.compileCount = s.compileCount + 1 ∧
    ∃ answer, (attempt env reentry inline key s).1 = .ok answer

variable {env reentry inline key s}

/-- A compilation that ends without a fault makes a map, unless it is for a catalog key. -/
lemma made_compileCourse_of_ok (hkey : Compilation.isCatalogKey key = false) {mapKey : String}
    {answer : Answer} (hok : (compileCourse env inline key profiles mapKey).result = .ok answer) :
    ∃ m, (compileCourse env inline key profiles mapKey).made = some m := by
  unfold compileCourse at hok ⊢
  cases hrun : (Compilation.run env inline profiles key).outcome with
  | error fault => simp [hrun] at hok
  | ok product =>
    cases product with
    | view v => exact absurd hrun (Compilation.run_ne_view hkey env inline profiles v)
    | map assignments =>
      cases hparts : Compilation.parts env.mode assignments with
      | error fault => simp [hrun, hparts] at hok
      | ok parts =>
        simp only [hparts]
        exact ⟨_, rfl⟩

/-- A course that begins a compilation and ends without a fault makes the map of its profiles,
unless it is for a catalog key. -/
lemma made_of_compiles (hlist : env.activeProfiles.outcome = .ok profiles)
    (hkey : Compilation.isCatalogKey key = false)
    (hcompiles : (course env inline key entries).compiles = 1) {answer : Answer}
    (hok : (course env inline key entries).result = .ok answer) :
    ∃ m, Compilation.compiled? env inline profiles = some m ∧
      (course env inline key entries).made = some m := by
  unfold course at hcompiles hok ⊢
  rw [hlist] at hcompiles hok ⊢
  cases profiles with
  | nil => cases hcompiles
  | cons p ps =>
    cases hmapKey : mapKey? (p :: ps) with
    | none => simp [hmapKey] at hcompiles
    | some mapKey =>
      cases hmap : cachedMap? key mapKey entries with
      | some cached => simp [hmapKey, hmap] at hcompiles
      | none =>
        simp only [hmapKey, hmap] at hok ⊢
        obtain ⟨m, hmade⟩ := made_compileCourse_of_ok hkey hok
        refine ⟨m, ?_, hmade⟩
        rw [← hmade, (compileCourse_of_not_catalog env inline (p :: ps) hkey hmapKey).1]

/-- What a call stores that is let in and makes a map: after the values of the parameters the
map, and after the map what releases the lock. -/
lemma rests_deposits {m : Compiled} (hadmits : admits key entries = true)
    (hmapKey : mapKey? m.profiles = some m.cacheKey)
    (hmade : (course env inline key entries).made = some m) :
    Rests m.profiles m.map (entries.putAll (deposits env inline key entries)) := by
  have hne : (lockKey == m.cacheKey) = false :=
    beq_eq_false_iff_ne.2 (mapKey_ne_lockKey hmapKey).symm
  rw [deposits, if_pos hadmits, Course.writes, hmade]
  simp only [Compiled.writes, Table.putAll_cons, Table.putAll_append, Table.putAll_nil]
  refine ⟨?_, Table.get?_put_self _ _ _⟩
  rw [cachedFor?, hmapKey, Option.bind_some, Table.get?_put_of_ne hne, Table.get?_put_self]

/-- A call that compiles with success caches the map that it makes and answers from it. -/
theorem rests_of_compiles (hlist : env.activeProfiles.outcome = .ok profiles)
    (hkey : Compilation.isCatalogKey key = false)
    (hcompiles : Compiles env reentry inline key s) :
    ∃ m, Compilation.compiled? env inline profiles = some m ∧
      (enforceFrom env reentry inline key s).1 = answerFrom key m.map ∧
      Rests profiles m.map (enforceFrom env reentry inline key s).2.cache.entries := by
  obtain ⟨hcount, answer, hok⟩ := hcompiles
  obtain ⟨hanswer, hentries, hserved, -⟩ := enforceFrom_serves env inline key reentry s
  rw [(attempt_follows env inline key reentry s).result] at hok
  rw [hserved, compilesOf] at hcount
  cases hadmits : admits key s.cache.entries with
  | false => simp [hadmits] at hcount
  | true =>
    rw [hadmits, if_pos rfl] at hcount
    obtain ⟨m, hm, hmade⟩ := made_of_compiles hlist hkey (Nat.add_left_cancel hcount) hok
    obtain ⟨rfl, hmapKey, -⟩ := Compilation.of_compiled? hm
    refine ⟨m, hm, ?_, ?_⟩
    · rw [hanswer, reply, if_pos hadmits, result_of_made hmade, select_eq_answerFrom]
      rfl
    · rw [hentries]
      exact rests_deposits hadmits hmapKey hmade

end Session

/-! ## Steps -/

namespace Step

/-- The step is neither a direct write to the cache nor its clearing. -/
def sparesCache : Step → Bool
  | .store .. | .clear => false
  | _ => true

/-- The step does not touch the value under a lookup key. -/
def keepsValue (key : String) : Step → Bool
  | .setValue k _ | .removeValue k => !(k == .text key)
  | _ => true

/-- The call that a step makes: its key, and where it takes inline documents from. -/
def call? (env : Environment) : Step → Option (String × InlineSource)
  | .enforce key => some (key, env.hostInline)
  | .enforceWith key values => some (key, Environment.mappedInline values)
  | _ => none

end Step

namespace Stage

open Session

variable {b : Backdrop} {st : Stage} {profiles : List Value} {map : Entries} {steps : List Step}

/-- A run that spares the cache, and all of whose stages list the same profiles. -/
structure Steady (b : Backdrop) (profiles : List Value) (st : Stage) (steps : List Step) :
    Prop where
  spares : ∀ s ∈ steps, s.sparesCache = true
  lists : ∀ before, before <+: steps →
    ((finish b st before).environment b).activeProfiles.outcome = .ok profiles

lemma Steady.now (h : Steady b profiles st steps) :
    (st.environment b).activeProfiles.outcome = .ok profiles :=
  h.lists [] (List.nil_prefix)

lemma steady_cons {s : Step} : Steady b profiles st (s :: steps) ↔
    s.sparesCache = true ∧ (st.environment b).activeProfiles.outcome = .ok profiles ∧
      Steady b profiles (step b st s).2 steps := by
  constructor
  · intro h
    obtain ⟨hs, hrest⟩ := List.forall_mem_cons.1 h.spares
    refine ⟨hs, h.now, hrest, fun before hbefore => ?_⟩
    exact h.lists (s :: before) (List.cons_prefix_cons.2 ⟨rfl, hbefore⟩)
  · rintro ⟨hs, hnow, hrest⟩
    refine ⟨List.forall_mem_cons.2 ⟨hs, hrest.spares⟩, fun before hbefore => ?_⟩
    cases before with
    | nil => exact hnow
    | cons s' before =>
      obtain ⟨rfl, hrestBefore⟩ := List.cons_prefix_cons.1 hbefore
      exact hrest.lists before hrestBefore

lemma steady_nil : Steady b profiles st [] ↔
    (st.environment b).activeProfiles.outcome = .ok profiles := by
  constructor
  · exact Steady.now
  · intro h
    refine ⟨List.forall_mem_nil _, fun before hbefore => ?_⟩
    rw [List.prefix_nil.1 hbefore]
    exact h

/-- The first steps of a steady run are a steady run. -/
lemma Steady.take {before after : List Step} (h : Steady b profiles st (before ++ after)) :
    Steady b profiles st before :=
  ⟨fun s hs => h.spares s (List.mem_append_left _ hs),
    fun _ hds => h.lists _ (hds.trans (List.prefix_append _ _))⟩

/-- A step that makes a call shows what the call comes to. -/
lemma step_of_call {s : Step} {key : String} {inline : InlineSource}
    (h : s.call? (st.environment b) = some (key, inline)) :
    step b st s =
      st.after
        (.answer (enforceFrom (st.environment b) b.reentry inline key st.forget.session).1)
        (enforceFrom (st.environment b) b.reentry inline key st.forget.session).2 := by
  cases s <;> cases h <;> rfl

lemma environment_step_of_call {s : Step} {key : String} {inline : InlineSource}
    (h : s.call? (st.environment b) = some (key, inline)) :
    (step b st s).2.environment b = st.environment b := by
  rw [step_of_call h]
  rfl

/-- A step that leaves the value under the enforcement key alone leaves the active profiles
alone. -/
lemma activeProfiles_step {s : Step} (hs : s.keepsValue b.enforcementKey = true) :
    ((step b st s).2.environment b).activeProfiles.outcome =
      (st.environment b).activeProfiles.outcome := by
  rw [Environment.activeProfiles_outcome, Environment.activeProfiles_outcome]
  cases s with
  | enforce key => rw [environment_step_of_call rfl]
  | enforceWith key values => rw [environment_step_of_call rfl]
  | setValue key v =>
    have hne : (key == Scalar.text b.enforcementKey) = false := by simpa [Step.keepsValue] using hs
    exact congrArg (fun a => Except.map Environment.profileList (.ok a))
      (Table.get?_put_of_ne hne v st.site.values)
  | removeValue key =>
    have hne : (key == Scalar.text b.enforcementKey) = false := by simpa [Step.keepsValue] using hs
    exact congrArg (fun a => Except.map Environment.profileList (.ok a))
      (Table.get?_erase_of_ne hne st.site.values)
  | activeProfiles =>
    unfold step
    rw [perform_activeProfiles]
    rfl
  | setFact name v => rfl
  | setModules records => rfl
  | setMode mode => rfl
  | store key v => rfl
  | fetch key default => rfl
  | test key => rfl
  | clear => rfl
  | statistics => rfl

/-- A run is steady whatever it changes of the host besides the value under the enforcement
key. -/
lemma steady_of_keepsValue (hlist : (st.environment b).activeProfiles.outcome = .ok profiles)
    (hsteps : ∀ s ∈ steps, s.sparesCache = true ∧ s.keepsValue b.enforcementKey = true) :
    Steady b profiles st steps := by
  induction steps generalizing st with
  | nil => exact steady_nil.2 hlist
  | cons s steps ih =>
    obtain ⟨⟨hspares, hkeeps⟩, hrest⟩ := List.forall_mem_cons.1 hsteps
    exact steady_cons.2 ⟨hspares, hlist, ih ((activeProfiles_step hkeeps).trans hlist) hrest⟩

/-- While the cache is at rest a step that spares it leaves every entry as it is. -/
theorem entries_step (hrests : Rests profiles map st.session.cache.entries)
    (hlist : (st.environment b).activeProfiles.outcome = .ok profiles) (hne : profiles ≠ [])
    {s : Step} (hs : s.sparesCache = true) :
    (step b st s).2.session.cache.entries = st.session.cache.entries := by
  have hcall : ∀ key inline, (enforceFrom (st.environment b) b.reentry inline key
      st.forget.session).2.cache.entries = st.session.cache.entries := fun key inline =>
    (enforceFrom_of_rests b.reentry inline key (s := st.forget.session) hrests hlist hne).1
  cases s with
  | enforce key => exact hcall key _
  | enforceWith key values => exact hcall key _
  | setValue key v => rfl
  | removeValue key => rfl
  | setFact name v => rfl
  | setModules records => rfl
  | setMode mode => rfl
  | store key v => cases hs
  | fetch key default => exact entries_fetch _ _ _
  | test key => rfl
  | clear => cases hs
  | statistics => rfl
  | activeProfiles =>
    -- A host that calls back makes a call of its own here.
    unfold step
    rw [perform_activeProfiles, askProfiles_eq]
    cases b.reentry.onKey (st.forget.environment b).enforcementKey with
    | none => rfl
    | some key => exact hcall key _

/-- While the cache is at rest a run that spares it leaves every entry as it is. -/
theorem entries_finish (hrests : Rests profiles map st.session.cache.entries)
    (hne : profiles ≠ []) (hsteady : Steady b profiles st steps) :
    (finish b st steps).session.cache.entries = st.session.cache.entries := by
  induction steps generalizing st with
  | nil => rfl
  | cons s steps ih =>
    obtain ⟨hs, hlist, hrest⟩ := steady_cons.1 hsteady
    have hstep := entries_step hrests hlist hne hs
    exact (ih (hstep ▸ hrests) hrest).trans hstep

/-- From the first call on that compiles with success, a run that spares the cache and keeps the
profiles has one map, the one which that call made and answered from.  Whatever the host, the
facts, the modules and the mode have become, every later step leaves every entry of the cache
as it is; every later call for a key that is neither reserved nor a catalog key is answered from
the map without a compilation; and every later call for a catalog key begins one compilation. -/
theorem run_after_compilation (hne : profiles ≠ []) {first : Step} {later : List Step}
    (hsteady : Steady b profiles st (first :: later)) {key : String} {inline : InlineSource}
    (hfirst : first.call? (st.environment b) = some (key, inline))
    (hkey : Compilation.isCatalogKey key = false)
    (hcompiles : Compiles (st.environment b) b.reentry inline key st.forget.session) :
    ∃ m, Compilation.compiled? (st.environment b) inline profiles = some m ∧
      (step b st first).1 = .answer (answerFrom key m.map) ∧
      mapKey? profiles = some m.cacheKey ∧
      (step b st first).2.session.cache.entries.get? m.cacheKey = some (.mapping m.map) ∧
      ∀ before s after, later = before ++ s :: after →
        let now := finish b st (first :: before)
        (step b now s).2.session.cache.entries = (step b st first).2.session.cache.entries ∧
        ∀ k source, s.call? (now.environment b) = some (k, source) →
          (isReserved k = false → Compilation.isCatalogKey k = false →
            (step b now s).1 = .answer (answerFrom k m.map) ∧
            (step b now s).2.session.compileCount = now.session.compileCount) ∧
          (Compilation.isCatalogKey k = true →
            (step b now s).2.session.compileCount = now.session.compileCount + 1) := by
  obtain ⟨hspares, hlist, hrest⟩ := steady_cons.1 hsteady
  obtain ⟨m, hm, hanswer, hrests⟩ := rests_of_compiles hlist hkey hcompiles
  have hstep := step_of_call (b := b) hfirst
  have hrests' : Rests profiles m.map (step b st first).2.session.cache.entries := by
    rw [hstep]
    exact hrests
  obtain ⟨-, hmapKey, -⟩ := Compilation.of_compiled? hm
  have hcached := hrests'.cached
  rw [cachedFor?, hmapKey, Option.bind_some] at hcached
  refine ⟨m, hm, ?_, hmapKey, hcached, ?_⟩
  · rw [hstep, ← hanswer]
    rfl
  · rintro before s after rfl
    intro now
    -- The steps before leave the cache at rest, and so does this one.
    have hbefore : now.session.cache.entries = (step b st first).2.session.cache.entries :=
      entries_finish hrests' hne hrest.take
    have hnow : Rests profiles m.map now.session.cache.entries := by
      rw [hbefore]
      exact hrests'
    have hs : s.sparesCache = true := hrest.spares s (by simp)
    have hlists : (now.environment b).activeProfiles.outcome = .ok profiles :=
      hrest.lists before (List.prefix_append _ _)
    refine ⟨(entries_step hnow hlists hne hs).trans hbefore, ?_⟩
    intro k source hcall
    obtain ⟨-, hother, hcatalog⟩ := enforceFrom_of_rests b.reentry source k
      (s := now.forget.session) hnow hlists hne
    rw [step_of_call hcall]
    refine ⟨fun hreserved hk => ?_, hcatalog⟩
    obtain ⟨hfrom, hcount⟩ := hother hreserved hk
    exact ⟨congrArg StepResult.answer hfrom, hcount⟩

/-- The start of a session whose profile gives a parameter a value, all there is standing inline
in one document. -/
def oneParameter : Stage where
  site :=
    { values :=
        [(.text "compliance_markup::enforcement", .text "baseline"),
          (.text "compliance_map", .ofTexts
            [("version", .text "2.0.0"),
              ("profiles", .ofTexts [("baseline", .ofTexts [("checks", .ofTexts
                [("chk1", .bool true)])])]),
              ("checks", .ofTexts [("chk1", .ofTexts
                [("type", .text "puppet"), ("settings", .ofTexts
                  [("parameter", .text "pkg::ensure"), ("value", .text "present")])])])])],
      facts := [],
      modules := .list [] }
  mode := .text "value"
  session := .fresh

/-- The document and the mode change after the first call.  The second call is still answered
from the first map, and asking for the names of the profiles compiles once more. -/
theorem run_after_compilation_changed :
    let first := Step.enforce "pkg::ensure"
    let before := [Step.removeValue (.text "compliance_map"), .setMode (.text "bogus")]
    let later := before ++ [.enforceWith "pkg::ensure" [], .enforce Compilation.profilesKey]
    Steady callingBack [.text "baseline"] oneParameter (first :: later) ∧
      Compilation.isCatalogKey "pkg::ensure" = false ∧
      Compiles (oneParameter.environment callingBack) callingBack.reentry
        (oneParameter.environment callingBack).hostInline "pkg::ensure"
        oneParameter.forget.session ∧
      ∃ m : Compiled,
        let now := finish callingBack oneParameter (first :: before)
        (step callingBack oneParameter first).1 = .answer (answerFrom "pkg::ensure" m.map) ∧
        (step callingBack now (.enforceWith "pkg::ensure" [])).1 =
          .answer (answerFrom "pkg::ensure" m.map) ∧
        (step callingBack now (.enforceWith "pkg::ensure" [])).2.session.compileCount =
          now.session.compileCount := by
  intro first before later
  have hsteady : Steady callingBack [.text "baseline"] oneParameter (first :: later) :=
    steady_of_keepsValue rfl (by decide)
  have hcompiles : Compiles (oneParameter.environment callingBack) callingBack.reentry
      (oneParameter.environment callingBack).hostInline "pkg::ensure"
      oneParameter.forget.session := by
    have hok : (attempt (oneParameter.environment callingBack) callingBack.reentry
        (oneParameter.environment callingBack).hostInline "pkg::ensure"
        oneParameter.forget.session).1.isOk = true := by decide +kernel
    refine ⟨by decide +kernel, ?_⟩
    cases hattempt : (attempt (oneParameter.environment callingBack) callingBack.reentry
        (oneParameter.environment callingBack).hostInline "pkg::ensure"
        oneParameter.forget.session).1 with
    | error fault =>
      rw [hattempt] at hok
      cases hok
    | ok answer => exact ⟨answer, rfl⟩
  obtain ⟨m, -, hfirst, -, -, hlater⟩ :=
    run_after_compilation (by simp) hsteady rfl (by decide) hcompiles
  obtain ⟨-, hcalls⟩ := hlater before (.enforceWith "pkg::ensure" [])
    [.enforce Compilation.profilesKey] rfl
  obtain ⟨hanswer, hcount⟩ := (hcalls _ _ rfl).1 (by decide) (by decide)
  exact ⟨hsteady, by decide, hcompiles, m, hfirst, hanswer, hcount⟩

end Stage

end ProfileCompiler
