import ProfileCompiler.Fingerprint
import ProfileCompiler.Session.Compilation

/-!
# Answering keys

A key is answered from the compiled map of the active profiles.  The map is compiled when no
map for these profiles is cached; the value of every parameter is then cached too, under the
parameter's own name.  A key that the map knocks out has no answer.

A fault anywhere leaves a note and no answer; it is a fault, too, that the list of profiles has no
fingerprint.  A call that comes while the lock is held is answered with nothing, which is all that a
host gets that calls back into the session.
-/

namespace ProfileCompiler

namespace Session

/-- The cache key of the compiled map of a list of profiles. -/
def mapKey? (profiles : List Value) : Option String :=
  (Fingerprint.ofList? profiles).map (mapKeyStart ++ ·)

/-- Whether a name occurs in a value: as a key of a mapping, an item of a list, or a part of a
text. -/
def occurs (name : String) : Value → Except Fault Bool
  | .mapping entries => .ok (Table.has (.text name) entries)
  | .list items => .ok (items.any fun item => item == Value.text name)
  | .scalar (.text s) => .ok (Text.contains name.toList s.toList)
  | _ => .error .notSearchable

/-- The answer to a key from a compiled map. -/
def select (key : String) (map : Value) : Except Fault Answer :=
  if key = Compilation.dumpKey then .ok (some map)
  else do
    if ← occurs (knockoutMark ++ key) map then .ok none
    else if ← occurs key map then
      match map with
      | .mapping entries => .ok (Table.get? (.text key) entries)
      | _ => .error .notKeyed
    else .ok none

/-- The parts of assignments that a mode selects, by parameter.  The value of a parameter is
stored as soon as its part is selected. -/
def storeParts (mode : Value) : Assignments → Session → Except Fault Entries × Session
  | [], s => (.ok [], s)
  | (parameter, a) :: rest, s =>
    match a.project mode with
    | .error fault => (.error fault, s)
    | .ok part =>
      match storeParts mode rest (s.store parameter a.value) with
      | (.error fault, s) => (.error fault, s)
      | (.ok more, s) => (.ok ((.text parameter, part) :: more), s)

/-- The answer to a key that is made by a compilation, the compiled map being cached under
`mapKey`. -/
def compileAndSelect (env : Environment) (reentry : Reentry)
    (call : String → Session → Answer × Session) (inline : InlineSource)
    (profiles : List Value) (mapKey key : String) (s : Session) : Except Fault Answer × Session :=
  let s := s.note (.compiling profiles)
  let s := { s with compileCount := s.compileCount + 1 }
  match perform reentry call (Compilation.run env inline profiles key) s with
  | (.error fault, s) => (.error fault, s)
  | (.ok (.view v), s) => (.ok (some v), s)
  | (.ok (.map assignments), s) =>
    match storeParts env.mode assignments s with
    | (.error fault, s) => (.error fault, s)
    | (.ok parts, s) =>
      let map := Compilation.withSeconds parts
      let s := s.store mapKey (.mapping map)
      let s := s.note (.compiled map.length Compilation.seconds)
      (select key (.mapping map), s)

/-- The answer to a key while the lock is held. -/
def answerLocked (env : Environment) (reentry : Reentry)
    (call : String → Session → Answer × Session) (inline : InlineSource) (key : String)
    (s : Session) : Except Fault Answer × Session :=
  match perform reentry call env.activeProfiles s with
  | (.error fault, s) => (.error fault, s)
  | (.ok [], s) => (.ok none, s)
  | (.ok profiles, s) =>
    let s := s.note (.enforcing env.enforcementKey profiles)
    match Text.written .overlongNumber (mapKey? profiles) with
    | .error fault => (.error fault, s)
    | .ok mapKey =>
      if !Compilation.isCatalogKey key && s.cache.has mapKey then
        let (map, cache) := s.cache.fetch mapKey .null
        (select key map, { s with cache := cache })
      else compileAndSelect env reentry call inline profiles mapKey key s

/-- The notes on a fault, and no answer. -/
def settle (key : String) : Except Fault Answer × Session → Answer × Session
  | (.ok answer, s) => (answer, s)
  | (.error fault, s) => (none, (s.note (.compilationFailed key fault)).note .failureDetails)

/-- The answer to a key, nested calls being followed to the given depth. -/
def enforceWithin (env : Environment) (reentry : Reentry) :
    Nat → InlineSource → String → Session → Answer × Session
  | 0, _, _, s => (none, s)
  | depth + 1, inline, key, s =>
    if isReserved key then (none, s)
    else
      match s.readLock with
      | (true, s) => (none, s.note (.compilationRunning key))
      | (false, s) =>
        let call := enforceWithin env reentry depth env.hostInline
        let (answer, s) :=
          settle key (answerLocked env reentry call inline key (s.setLock true))
        (answer, s.setLock false)

/-- The depth to which nested calls are followed.  A call within a call finds the lock held
and makes no calls itself. -/
def callDepth : Nat := 2

/-- The answer to a key, inline documents coming from the given source. -/
def enforceFrom (env : Environment) (reentry : Reentry) (inline : InlineSource) (key : String)
    (s : Session) : Answer × Session :=
  enforceWithin env reentry callDepth inline key s

/-- The answer to a key. -/
def enforce (env : Environment) (reentry : Reentry) (key : String) (s : Session) :
    Answer × Session :=
  enforceFrom env reentry env.hostInline key s

/-- The active profiles.  A host that calls back is answered as usual. -/
def askProfiles (env : Environment) (reentry : Reentry) (s : Session) :
    Except Fault (List Value) × Session :=
  perform reentry (enforce env reentry) env.activeProfiles s

end Session

end ProfileCompiler
