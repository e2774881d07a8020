import ProfileCompiler.Cache
import ProfileCompiler.Host
import ProfileCompiler.Merge
import ProfileCompiler.Note

/-!
# Sessions

A session is a cache with a count of compilations.  It also remembers the notes left so far
and the answers of nested calls.

While a key is being answered, the cache holds a lock.  A host may call back into the session
when it is asked for a key or a fact (`Reentry`); `Session.replay` goes through the events of
a piece of work and makes those calls where they belong.
-/

namespace ProfileCompiler

/-- What a key lookup answers: a value, or nothing. -/
abbrev Answer := Option Value

/-- The surroundings in which keys are answered. -/
structure Environment where
  host : Host
  /-- The documents found in files, with the notes left in finding them. -/
  documents : Told (List (String × Value))
  /-- The lookup key of the active profiles. -/
  enforcementKey : String
  /-- What names the part of an assignment that is answered. -/
  mode : Value

/-- The keys that a host asks the session for before it answers a question itself. -/
structure Reentry where
  onKey : String → Option String
  onFact : Scalar → Option String

namespace Reentry

/-- The host never calls back. -/
def never : Reentry := ⟨fun _ => none, fun _ => none⟩

/-- The key asked for when something happens, if any. -/
def callOn (reentry : Reentry) : Event → Option String
  | .askedKey key => reentry.onKey key
  | .askedFact name => reentry.onFact name
  | .noted _ | .askedModules => none

end Reentry

/-- The state of a session. -/
structure Session where
  cache : Cache
  compileCount : Nat
  notes : List Note
  /-- The keys of nested calls with their answers, in the order in which the calls ended. -/
  nested : List (String × Answer)

namespace Session

/-- The cache key of the lock. -/
def lockKey : String := "_simp_compliance_markup_lock"

/-- The start of the cache keys of compiled maps. -/
def mapKeyStart : String := "compliance_map_"

/-- The lookup keys that are answered without looking into the compiled map. -/
def reservedKeys : List String := ["lookup_options", "compliance_map"]

/-- The start of the lookup keys that belong to the compilation itself. -/
def ownNamespace : String := "compliance_markup::"

/-- The part of that namespace whose keys are answered nevertheless. -/
def debugNamespace : String := "debug::"

/-- Whether a key is never answered. -/
def isReserved (key : String) : Bool :=
  reservedKeys.contains key ||
    match Text.after? ownNamespace key with
    | some rest => (Text.after? debugNamespace rest).isNone
    | none => false

/-- The session before any call. -/
def fresh : Session := ⟨.empty, 0, [], []⟩

/-- The session with one more note. -/
def note (s : Session) (n : Note) : Session := { s with notes := s.notes ++ [n] }

/-- The session with a value in its cache. -/
def store (s : Session) (key : String) (v : Value) : Session :=
  { s with cache := s.cache.store key v }

/-- The session with the lock set or released. -/
def setLock (s : Session) (held : Bool) : Session := s.store lockKey (.bool held)

/-- Whether the lock is held.  Reading a lock that is there counts as a read of the cache. -/
def readLock (s : Session) : Bool × Session :=
  if s.cache.has lockKey then
    let (held, cache) := s.cache.fetch lockKey .null
    (held.truthy, { s with cache := cache })
  else (false, s)

/-- The session after the given events, nested calls being answered by `call`. -/
def replay (reentry : Reentry) (call : String → Session → Answer × Session) :
    List Event → Session → Session
  | [], s => s
  | .noted n :: rest, s => replay reentry call rest (s.note n)
  | event :: rest, s =>
    match reentry.callOn event with
    | none => replay reentry call rest s
    | some key =>
      let (answer, s) := call key s
      replay reentry call rest { s with nested := s.nested ++ [(key, answer)] }

/-- The outcome of a piece of work, and the session after it. -/
def perform {α : Type} (reentry : Reentry) (call : String → Session → Answer × Session)
    (work : Told α) (s : Session) : Except Fault α × Session :=
  (work.outcome, replay reentry call work.events s)

end Session

end ProfileCompiler
