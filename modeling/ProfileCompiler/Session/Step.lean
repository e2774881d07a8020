import ProfileCompiler.Session.Enforcement

/-!
# Runs of a session

A run is a list of steps: keys are asked for, the data of the host and the mode change, and
the cache is used directly.  `Stage` is what a run changes; `Stage.step` makes one step and
`Stage.run` all of them.
-/

namespace ProfileCompiler

/-- A step of a run. -/
inductive Step where
  | enforce (key : String)
  /-- A key is asked for, inline documents being taken from the given mapping. -/
  | enforceWith (key : String) (values : Entries)
  | setValue (key : Scalar) (v : Value)
  | removeValue (key : Scalar)
  | setFact (name : Scalar) (v : Value)
  | setModules (records : Value)
  | setMode (mode : Value)
  | store (key : String) (v : Value)
  | fetch (key : String) (default : Value)
  | test (key : String)
  | clear
  | statistics
  | activeProfiles
deriving Repr

/-- What a step gives. -/
inductive StepResult where
  | nothing
  | answer (a : Answer)
  | value (v : Value)
  | present (b : Bool)
  | removed (count : Nat)
  | statistics (size hits misses : Nat) (hitRate : Binary64)
  | profiles (names : List Value)
  | failed (fault : Fault)
deriving Repr

/-- What stays the same in a run. -/
structure Backdrop where
  documents : Told (List (String × Value))
  enforcementKey : String
  reentry : Reentry

/-- What a run changes. -/
structure Stage where
  site : Site
  mode : Value
  session : Session

namespace Stage

/-- The surroundings in which keys are answered now. -/
def environment (b : Backdrop) (st : Stage) : Environment where
  host := st.site.toHost
  documents := b.documents
  enforcementKey := b.enforcementKey
  mode := st.mode

/-- The stage with another session and what the step gave. -/
def after (st : Stage) (result : StepResult) (session : Session) : StepResult × Stage :=
  (result, { st with session := session })

/-- What a step gives, and the stage after it. -/
def perform (b : Backdrop) (st : Stage) : Step → StepResult × Stage
  | .enforce key =>
    let (answer, session) := Session.enforce (st.environment b) b.reentry key st.session
    st.after (.answer answer) session
  | .enforceWith key values =>
    let (answer, session) :=
      Session.enforceFrom (st.environment b) b.reentry (Environment.mappedInline values) key
        st.session
    st.after (.answer answer) session
  | .setValue key v =>
    (.nothing, { st with site := { st.site with values := st.site.values.put key v } })
  | .removeValue key =>
    (.nothing, { st with site := { st.site with values := st.site.values.erase key } })
  | .setFact name v =>
    (.nothing, { st with site := { st.site with facts := st.site.facts.put name v } })
  | .setModules records => (.nothing, { st with site := { st.site with modules := records } })
  | .setMode mode => (.nothing, { st with mode := mode })
  | .store key v => st.after .nothing (st.session.store key v)
  | .fetch key default =>
    let (v, cache) := st.session.cache.fetch key default
    st.after (.value v) { st.session with cache := cache }
  | .test key => (.present (st.session.cache.has key), st)
  | .clear =>
    st.after (.removed st.session.cache.size)
      { st.session with cache := st.session.cache.clear }
  | .statistics =>
    let c := st.session.cache
    (.statistics c.size c.hits c.misses c.hitRate, st)
  | .activeProfiles =>
    match Session.askProfiles (st.environment b) b.reentry st.session with
    | (.ok names, session) => st.after (.profiles names) session
    | (.error fault, session) => st.after (.failed fault) session

/-- The stage without the nested calls of the step before. -/
def forget (st : Stage) : Stage := { st with session := { st.session with nested := [] } }

/-- One step of a run.  The session shows the nested calls of this step only. -/
def step (b : Backdrop) (st : Stage) (s : Step) : StepResult × Stage := perform b st.forget s

/-- What the steps of a run give, each with the stage after it. -/
def run (b : Backdrop) (st : Stage) : List Step → List (StepResult × Stage)
  | [] => []
  | s :: rest => step b st s :: run b (step b st s).2 rest

end Stage

end ProfileCompiler
