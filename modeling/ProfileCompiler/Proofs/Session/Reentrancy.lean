import ProfileCompiler.Proofs.Session.Course
import ProfileCompiler.Session.Step

/-!
# Hosts that call back

A host may ask the session for a key before it answers a lookup key or a fact.  During a call
such a request finds the lock held, so it cannot be seen from outside.  A run is compared with
the run on the host that gives the same answers and never calls back: results, cache entries in
their order and the count of compilations agree at every step, and what may differ is how often
the cache was read.

One step is not a call and takes no lock.  When the active profiles are asked for directly, a
host that calls back at the enforcement key makes an outer call of its own, which may compile.
In the comparison that step stands for two steps, `Step.unfolded`.

## Main results

* `step_agrees`: one step shows the same as the last of the steps it stands for.
* `map_view_run_of_alike`: where every step stands for itself, runs show the same throughout.
* `getLast?_run_of_alike`: every run shows at its end what the run on the other host shows.
* `nested_of_call`: nested calls of a call have no answer, and a call begins at most one
  compilation.
-/

namespace ProfileCompiler

/-- What a step gives, without the counts of reads. -/
def StepResult.uncounted : StepResult → StepResult
  | .statistics size _ _ _ => .statistics size 0 0 .zero
  | r => r

/-- What is seen of a session after a step. -/
structure View where
  result : StepResult
  entries : Table String Value
  compileCount : Nat

/-- The backdrop whose host gives the same answers and never calls back. -/
def Backdrop.plain (b : Backdrop) : Backdrop := { b with reentry := .never }

namespace Step

/-- The step asks for a key. -/
def isCall : Step → Bool
  | .enforce _ | .enforceWith .. => true
  | _ => false

/-- The steps that a step stands for on the host that never calls back.  Asking for the active
profiles is no call: a key that the host asks for meanwhile is asked for outside any call. -/
def unfolded (b : Backdrop) : Step → List Step
  | .activeProfiles =>
    ((b.reentry.onKey b.enforcementKey).map Step.enforce).toList ++ [.activeProfiles]
  | s => [s]

end Step

namespace Stage

/-- What is seen of a step. -/
def view (shown : StepResult × Stage) : View :=
  ⟨shown.1.uncounted, shown.2.session.cache.entries, shown.2.session.compileCount⟩

/-- The stage after a run. -/
def finish (b : Backdrop) (st : Stage) (steps : List Step) : Stage :=
  steps.foldl (fun st s => (step b st s).2) st

lemma run_append (b : Backdrop) (st : Stage) (xs ys : List Step) :
    run b st (xs ++ ys) = run b st xs ++ run b (finish b st xs) ys := by
  induction xs generalizing st with
  | nil => rfl
  | cons x xs ih => simp only [List.cons_append, run, ih, finish, List.foldl_cons]

/-- Two stages that differ at most in counts of reads, notes and nested calls. -/
structure Alike (st st' : Stage) : Prop where
  site : st.site = st'.site
  mode : st.mode = st'.mode
  entries : st.session.cache.entries = st'.session.cache.entries
  compileCount : st.session.compileCount = st'.session.compileCount

namespace Alike

variable {b : Backdrop} {st st' : Stage}

lemma refl (st : Stage) : Alike st st := ⟨rfl, rfl, rfl, rfl⟩

lemma forget (h : Alike st st') : Alike st.forget st'.forget :=
  ⟨h.site, h.mode, h.entries, h.compileCount⟩

lemma environment (h : Alike st st') : st.environment b = st'.environment b.plain := by
  unfold Stage.environment
  rw [h.site, h.mode]
  rfl

end Alike

/-- Two steps show the same and leave stages that are alike. -/
structure Agrees (shown shown' : StepResult × Stage) : Prop where
  result : shown.1.uncounted = shown'.1.uncounted
  stage : Alike shown.2 shown'.2

lemma Agrees.view {shown shown' : StepResult × Stage} (h : Agrees shown shown') :
    view shown = view shown' := by
  unfold Stage.view
  rw [h.result, h.stage.entries, h.stage.compileCount]

/-! ## One step -/

variable {b : Backdrop} {st st' : Stage}

/-- The same call in two sessions with the same entries. -/
lemma enforceFrom_agrees (h : Alike st st') {inline inline' : InlineSource}
    (hinline : inline = inline') (key : String) :
    Agrees
      (st.after (.answer (Session.enforceFrom (st.environment b) b.reentry inline key
        st.session).1)
        (Session.enforceFrom (st.environment b) b.reentry inline key st.session).2)
      (st'.after (.answer (Session.enforceFrom (st'.environment b.plain) .never inline' key
        st'.session).1)
        (Session.enforceFrom (st'.environment b.plain) .never inline' key st'.session).2) := by
  subst hinline
  have hs := Session.enforceFrom_serves (st.environment b) inline key b.reentry st.session
  have hs' := Session.enforceFrom_serves (st'.environment b.plain) inline key .never st'.session
  refine ⟨?_, h.site, h.mode, ?_, ?_⟩
  · simp only [after, StepResult.uncounted]
    rw [hs.answer, hs'.answer, h.environment, h.entries]
  · simp only [after]
    rw [hs.entries, hs'.entries, h.environment, h.entries]
  · simp only [after]
    rw [hs.compileCount, hs'.compileCount, h.environment, h.entries, h.compileCount]

/-- What asking for the active profiles leaves of a session. -/
lemma askProfiles_eq (env : Environment) (reentry : Reentry) (s : Session) :
    Session.askProfiles env reentry s =
      match reentry.onKey env.enforcementKey with
      | none => (env.activeProfiles.outcome, s)
      | some key =>
        (env.activeProfiles.outcome,
          { (Session.enforce env reentry key s).2 with
            nested := (Session.enforce env reentry key s).2.nested ++
              [(key, (Session.enforce env reentry key s).1)] }) := by
  have hevents : env.activeProfiles.events = [.askedKey env.enforcementKey] := by
    unfold Environment.activeProfiles Environment.hostInline
    show (Told.andThen _ _).events = _
    unfold Told.andThen
    cases env.host.lookup env.enforcementKey <;> rfl
  unfold Session.askProfiles Session.perform
  rw [hevents]
  cases hcall : reentry.onKey env.enforcementKey with
  | none => simp only [Session.replay, Reentry.callOn, hcall]
  | some key => simp only [Session.replay, Reentry.callOn, hcall]

/-- The step result of asking for the active profiles. -/
def asked : Except Fault (List Value) → StepResult
  | .ok names => .profiles names
  | .error fault => .failed fault

lemma perform_activeProfiles (b : Backdrop) (st : Stage) :
    perform b st .activeProfiles =
      st.after (asked (st.environment b).activeProfiles.outcome)
        (Session.askProfiles (st.environment b) b.reentry st.session).2 := by
  have houtcome : (Session.askProfiles (st.environment b) b.reentry st.session).1 =
      (st.environment b).activeProfiles.outcome := rfl
  rw [← houtcome]
  unfold perform
  rcases Session.askProfiles (st.environment b) b.reentry st.session with ⟨_ | _, session⟩ <;> rfl

/-- On a host that never calls back, asking for the active profiles changes nothing. -/
lemma perform_activeProfiles_plain (b : Backdrop) (st : Stage) :
    perform b.plain st .activeProfiles =
      (asked (st.environment b.plain).activeProfiles.outcome, st) := by
  rw [perform_activeProfiles, askProfiles_eq]
  rfl

/-- A step other than asking for the active profiles shows the same on both hosts. -/
lemma step_agrees_of_ne (h : Alike st st') {s : Step} (hs : s ≠ .activeProfiles) :
    Agrees (step b st s) (step b.plain st' s) := by
  obtain ⟨hsite, hmode, hentries, hcount⟩ := h.forget
  -- Only calls ask the host; the other steps change or show what is alike on both stages.
  cases s with
  | enforce key =>
    exact enforceFrom_agrees h.forget
      (congrArg Environment.hostInline (h.forget.environment (b := b))) key
  | enforceWith key values => exact enforceFrom_agrees h.forget rfl key
  | setValue key v =>
    exact ⟨rfl, congrArg (fun site : Site => { site with values := site.values.put key v }) hsite,
      hmode, hentries, hcount⟩
  | removeValue key =>
    exact ⟨rfl, congrArg (fun site : Site => { site with values := site.values.erase key }) hsite,
      hmode, hentries, hcount⟩
  | setFact name v =>
    exact ⟨rfl, congrArg (fun site : Site => { site with facts := site.facts.put name v }) hsite,
      hmode, hentries, hcount⟩
  | setModules records =>
    exact ⟨rfl, congrArg (fun site : Site => { site with modules := records }) hsite,
      hmode, hentries, hcount⟩
  | setMode mode => exact ⟨rfl, hsite, rfl, hentries, hcount⟩
  | store key v => exact ⟨rfl, hsite, hmode, congrArg (Table.put key v) hentries, hcount⟩
  | fetch key default =>
    have hvalue : (st.forget.session.cache.fetch key default).1 =
        (st'.forget.session.cache.fetch key default).1 := by
      rw [Session.fetch_fst, Session.fetch_fst, hentries]
    have hkept : (st.forget.session.cache.fetch key default).2.entries =
        (st'.forget.session.cache.fetch key default).2.entries := by
      rw [Session.entries_fetch, Session.entries_fetch, hentries]
    exact ⟨congrArg StepResult.value hvalue, hsite, hmode, hkept, hcount⟩
  | test key =>
    exact ⟨congrArg (fun t => StepResult.present (Table.has key t)) hentries, hsite, hmode,
      hentries, hcount⟩
  | clear =>
    exact ⟨congrArg (fun t : Table String Value => StepResult.removed t.length) hentries, hsite,
      hmode, rfl, hcount⟩
  | statistics =>
    exact ⟨congrArg (fun t : Table String Value => StepResult.statistics t.length 0 0 .zero)
      hentries, hsite, hmode, hentries, hcount⟩
  | activeProfiles => exact absurd rfl hs

/-- Asking for the active profiles where the host does not call back. -/
lemma activeProfiles_agrees_of_none (h : Alike st st')
    (hcall : b.reentry.onKey b.enforcementKey = none) :
    Agrees (step b st .activeProfiles) (step b.plain st' .activeProfiles) := by
  have hasked : (Session.askProfiles (st.forget.environment b) b.reentry st.forget.session).2 =
      st.forget.session := by
    rw [askProfiles_eq]
    simp only [environment, hcall]
  unfold step
  rw [perform_activeProfiles, perform_activeProfiles_plain, hasked, h.forget.environment]
  exact ⟨rfl, h.forget⟩

/-- Asking for the active profiles where the host calls back: the key is asked for first, as in
a call of its own. -/
lemma activeProfiles_agrees_of_some (h : Alike st st') {key : String}
    (hcall : b.reentry.onKey b.enforcementKey = some key) :
    Agrees (step b st .activeProfiles)
      (step b.plain (step b.plain st' (.enforce key)).2 .activeProfiles) := by
  have hcalled : Agrees (step b st (.enforce key)) (step b.plain st' (.enforce key)) :=
    step_agrees_of_ne h Step.noConfusion
  have henv := hcalled.stage.environment (b := b)
  obtain ⟨hsite, hmode, hentries, hcount⟩ := hcalled.stage
  unfold step at *
  rw [perform_activeProfiles, perform_activeProfiles_plain, askProfiles_eq]
  simp only [environment, hcall]
  exact ⟨congrArg (fun env : Environment => (asked env.activeProfiles.outcome).uncounted) henv,
    hsite, hmode, hentries, hcount⟩

/-- A step shows what the last of the steps that it stands for shows on the host that never
calls back, and leaves a stage like the one after them. -/
theorem step_agrees (h : Alike st st') (s : Step) :
    ∃ shown, (run b.plain st' (s.unfolded b)).getLast? = some shown ∧
      finish b.plain st' (s.unfolded b) = shown.2 ∧ Agrees (step b st s) shown := by
  by_cases hs : s = .activeProfiles
  · subst hs
    cases hcall : b.reentry.onKey b.enforcementKey with
    | none =>
      refine ⟨_, ?_, ?_, activeProfiles_agrees_of_none h hcall⟩
      · simp [Step.unfolded, hcall, run]
      · simp [Step.unfolded, hcall, finish]
    | some key =>
      refine ⟨_, ?_, ?_, activeProfiles_agrees_of_some h hcall⟩
      · simp [Step.unfolded, hcall, run]
      · simp [Step.unfolded, hcall, finish]
  · refine ⟨step b.plain st' s, ?_, ?_, step_agrees_of_ne h hs⟩
    · cases s <;> first | rfl | exact absurd rfl hs
    · cases s <;> first | rfl | exact absurd rfl hs

/-! ## Runs -/

/-- Runs in which every step stands for itself show the same at every step. -/
theorem map_view_run_of_alike (h : Alike st st') {steps : List Step}
    (hsteps : ∀ s ∈ steps, s.unfolded b = [s]) :
    (run b st steps).map view = (run b.plain st' steps).map view := by
  induction steps generalizing st st' with
  | nil => rfl
  | cons s steps ih =>
    obtain ⟨hs, hrest⟩ := List.forall_mem_cons.1 hsteps
    obtain ⟨shown, hlast, -, hagrees⟩ := step_agrees h s
    rw [hs] at hlast
    obtain rfl : step b.plain st' s = shown := Option.some.inj hlast
    simp only [run, List.map_cons]
    rw [hagrees.view, ih hagrees.stage hrest]

/-- Runs from stages that are alike show the same at their end. -/
lemma getLast?_run_of_alike (h : Alike st st') (steps : List Step) :
    (run b st steps).getLast?.map view =
      (run b.plain st' (steps.flatMap (Step.unfolded b))).getLast?.map view := by
  induction steps generalizing st st' with
  | nil => rfl
  | cons s steps ih =>
    obtain ⟨shown, hlast, hfinish, hagrees⟩ := step_agrees h s
    have hleft : (run b st (s :: steps)).getLast?.map view =
        ((run b (step b st s).2 steps).getLast?.map view).or (some (view (step b st s))) := by
      rw [run, List.getLast?_cons]
      cases (run b (step b st s).2 steps).getLast? <;> rfl
    rw [hleft, ih hagrees.stage, hagrees.view, List.flatMap_cons, run_append, hfinish,
      List.getLast?_append, hlast, Option.map_or]
    rfl

end Stage

namespace Session

lemma compiles_compileCourse (env : Environment) (inline : InlineSource) (key : String)
    (profiles : List Value) (mapKey : String) :
    (compileCourse env inline key profiles mapKey).compiles = 1 := by
  unfold compileCourse
  split
  · rfl
  · rfl
  · split <;> rfl

/-- A call begins at most one compilation. -/
lemma compilesOf_le_one (env : Environment) (inline : InlineSource) (key : String)
    (entries : Table String Value) : compilesOf env inline key entries ≤ 1 := by
  unfold compilesOf
  split
  · unfold course
    split
    · exact Nat.zero_le 1
    · exact Nat.zero_le 1
    · split
      · exact Nat.zero_le 1
      · split
        · exact Nat.zero_le 1
        · exact Nat.le_of_eq (compiles_compileCourse env inline key _ _)
  · exact Nat.zero_le 1

end Session

namespace Stage

/-- The nested calls of a call have no answer, and the call begins at most one compilation. -/
lemma nested_of_call (b : Backdrop) (st : Stage) {s : Step} (hs : s.isCall = true) :
    (∀ call ∈ (step b st s).2.session.nested, call.2 = none) ∧
      (step b st s).2.session.compileCount ≤ st.session.compileCount + 1 := by
  have hserved : ∃ inline key, (step b st s).2.session =
      (Session.enforceFrom (st.environment b) b.reentry inline key st.forget.session).2 := by
    cases s <;> first | exact ⟨_, _, rfl⟩ | cases hs
  obtain ⟨inline, key, heq⟩ := hserved
  obtain ⟨-, -, hcount, keys, hnested⟩ :=
    Session.enforceFrom_serves (st.environment b) inline key b.reentry st.forget.session
  rw [heq]
  constructor
  · intro call hcall
    rw [hnested] at hcall
    obtain ⟨k, -, rfl⟩ := List.mem_map.1 (by simpa [forget] using hcall)
    rfl
  · rw [hcount]
    exact Nat.add_le_add_left (Session.compilesOf_le_one _ _ _ _) _

/-- Where the host calls back when the active profiles are asked for directly, the nested calls
are those of a call for its key, and then that call itself. -/
lemma nested_activeProfiles (b : Backdrop) (st : Stage) {key : String}
    (hcall : b.reentry.onKey b.enforcementKey = some key) :
    ∃ answer, (step b st (.enforce key)).1 = .answer answer ∧
      (step b st .activeProfiles).2.session.nested =
        (step b st (.enforce key)).2.session.nested ++ [(key, answer)] := by
  refine ⟨_, rfl, ?_⟩
  unfold step
  rw [perform_activeProfiles, askProfiles_eq]
  simp only [environment, hcall]
  rfl

/-- Calling back cannot be seen.  After any run, the last step has the result that it has where
the host never calls back, apart from counts of reads, and leaves the same cache entries in the
same order and the same count of compilations; a call begins at most one compilation, and none
of its nested calls has an answer.  Asking for the active profiles is no call: the key that the
host asks for then is asked for in a call of its own before it. -/
theorem run_view_eq (b : Backdrop) (st : Stage) (steps : List Step) :
    (run b st steps).getLast?.map view =
        (run b.plain st (steps.flatMap (Step.unfolded b))).getLast?.map view ∧
      (∀ s : Step, s.isCall = true →
        (∀ call ∈ (step b (finish b st steps) s).2.session.nested, call.2 = none) ∧
          (step b (finish b st steps) s).2.session.compileCount ≤
            (finish b st steps).session.compileCount + 1) ∧
      ∀ key, b.reentry.onKey b.enforcementKey = some key →
        ∃ answer, (step b (finish b st steps) (.enforce key)).1 = .answer answer ∧
          (step b (finish b st steps) .activeProfiles).2.session.nested =
            (step b (finish b st steps) (.enforce key)).2.session.nested ++ [(key, answer)] := by
  refine ⟨getLast?_run_of_alike (Alike.refl st) steps, ?_, ?_⟩
  · intro s hs
    exact nested_of_call b _ hs
  · intro key hcall
    exact nested_activeProfiles b _ hcall

/-- A host that asks for a parameter before it answers the enforcement key or an inline
document. -/
def callingBack : Backdrop where
  documents := .done []
  enforcementKey := "compliance_markup::enforcement"
  reentry := ⟨fun key => if key = "compliance_map" ∨ key = "compliance_markup::enforcement" then
    some "pkg::ensure" else none, fun _ => none⟩

/-- The start of a session with one active profile. -/
def oneProfile : Stage where
  site := ⟨[(.text "compliance_markup::enforcement", .text "baseline")], [], .list []⟩
  mode := .text "value"
  session := .fresh

/-- A call has two nested calls, both without an answer.  Asking for the active profiles has one
more, with the answer of a call of its own. -/
theorem run_view_eq_callingBack :
    Step.isCall (.enforce "compliance_markup::debug::dump") = true ∧
      callingBack.reentry.onKey callingBack.enforcementKey = some "pkg::ensure" ∧
      ((step callingBack oneProfile
          (.enforce "compliance_markup::debug::dump")).2.session.nested.map Prod.fst =
        ["pkg::ensure", "pkg::ensure"]) ∧
      (∀ call ∈ (step callingBack oneProfile
        (.enforce "compliance_markup::debug::dump")).2.session.nested, call.2 = none) ∧
      ∃ answer, (step callingBack oneProfile (.enforce "pkg::ensure")).1 = .answer answer ∧
        (step callingBack oneProfile .activeProfiles).2.session.nested =
          (step callingBack oneProfile (.enforce "pkg::ensure")).2.session.nested ++
            [("pkg::ensure", answer)] :=
  have h := run_view_eq callingBack oneProfile []
  ⟨rfl, by decide, by decide +kernel, (h.2.1 _ rfl).1, h.2.2 _ (by decide)⟩

/-- Calling back can be seen where no call is made: the active profiles are asked for directly,
and the host's own request compiles. -/
theorem activeProfiles_shows_reentry :
    (run callingBack oneProfile [.activeProfiles]).map view ≠
      (run callingBack.plain oneProfile [.activeProfiles]).map view := by
  intro h
  have hcount := congrArg (List.map View.compileCount) h
  exact absurd hcount (by decide +kernel)

end Stage

end ProfileCompiler
