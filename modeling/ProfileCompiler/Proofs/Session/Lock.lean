import ProfileCompiler.Proofs.Table
import ProfileCompiler.Session.Enforcement

/-!
# Calls that find the lock held

While a key is being answered the lock is held, and the host may call back at every event.
Such a nested call is turned away (`Session.turnedAway`): it has no answer, and it leaves the
entries of the cache and the count of compilations as they are.

The main result is `enforceWithin_eq`: as soon as a call is let in, nested calls are the same
function at every depth, so a call does not depend on how deep nested calls are followed, and
`Session.callDepth` is deep enough.
-/

namespace ProfileCompiler

namespace Session

/-! ## The lock -/

/-- Whether the lock is held in a cache with the given entries. -/
def lockHeld (entries : Table String Value) : Bool :=
  (entries.get? lockKey).any Value.truthy

@[simp] lemma lockHeld_put_lock (entries : Table String Value) (held : Bool) :
    lockHeld (entries.put lockKey (.bool held)) = held := by
  rw [lockHeld, Table.get?_put_self]
  rfl

lemma lockHeld_fresh : lockHeld fresh.cache.entries = false := rfl

@[simp] lemma entries_store (s : Session) (key : String) (v : Value) :
    (s.store key v).cache.entries = s.cache.entries.put key v := rfl

@[simp] lemma entries_setLock (s : Session) (held : Bool) :
    (s.setLock held).cache.entries = s.cache.entries.put lockKey (.bool held) := rfl

@[simp] lemma compileCount_setLock (s : Session) (held : Bool) :
    (s.setLock held).compileCount = s.compileCount := rfl

@[simp] lemma nested_setLock (s : Session) (held : Bool) : (s.setLock held).nested = s.nested :=
  rfl

@[simp] lemma cache_note (s : Session) (n : Note) : (s.note n).cache = s.cache := rfl

/-- Reading the cache changes its counts only. -/
lemma entries_fetch (c : Cache) (key : String) (default : Value) :
    (c.fetch key default).2.entries = c.entries := by
  unfold Cache.fetch
  split <;> rfl

lemma fetch_fst (c : Cache) (key : String) (default : Value) :
    (c.fetch key default).1 = (c.entries.get? key).getD default := by
  unfold Cache.fetch
  split
  · rename_i v h
    rw [h]
    rfl
  · rename_i h
    rw [h]
    rfl

lemma readLock_fst (s : Session) : s.readLock.1 = lockHeld s.cache.entries := by
  unfold readLock lockHeld Cache.has Table.has
  cases h : s.cache.entries.get? lockKey with
  | none => rfl
  | some v =>
    simp only [Option.isSome_some, if_true, Option.any_some]
    rw [fetch_fst, h]
    rfl

/-- Reading the lock changes nothing but a count of reads. -/
lemma readLock_snd (s : Session) :
    s.readLock.2.cache.entries = s.cache.entries ∧
      s.readLock.2.compileCount = s.compileCount ∧ s.readLock.2.nested = s.nested := by
  unfold readLock
  split
  · exact ⟨entries_fetch _ _ _, rfl, rfl⟩
  · exact ⟨rfl, rfl, rfl⟩

/-! ## Turned away -/

/-- What a call comes to while the lock is held: no answer, and a note unless the key is
reserved. -/
def turnedAway (key : String) (s : Session) : Answer × Session :=
  if isReserved key then (none, s) else (none, s.readLock.2.note (.compilationRunning key))

lemma turnedAway_fst (key : String) (s : Session) : (turnedAway key s).1 = none := by
  unfold turnedAway
  split <;> rfl

lemma turnedAway_snd (key : String) (s : Session) :
    (turnedAway key s).2.cache.entries = s.cache.entries ∧
      (turnedAway key s).2.compileCount = s.compileCount ∧
      (turnedAway key s).2.nested = s.nested := by
  unfold turnedAway
  split
  · exact ⟨rfl, rfl, rfl⟩
  · exact readLock_snd s

variable (env : Environment) (reentry : Reentry)

/-- Under a held lock a call is turned away, whatever its key and its depth. -/
lemma enforceWithin_of_held (depth : Nat) (inline : InlineSource) (key : String) {s : Session}
    (held : lockHeld s.cache.entries = true) :
    enforceWithin env reentry (depth + 1) inline key s = turnedAway key s := by
  have hread : s.readLock = (true, s.readLock.2) := by
    rw [← held, ← readLock_fst]
  unfold enforceWithin turnedAway
  split
  · rfl
  · rw [hread]

/-! ## Nested calls during a piece of work -/

lemma replay_cons_of_none {event : Event} (h : reentry.callOn event = none) (s : Session) :
    ∃ notes, ∀ call events,
      replay reentry call (event :: events) s =
        replay reentry call events { s with notes := notes } := by
  cases event with
  | noted n => exact ⟨s.notes ++ [n], fun _ _ => rfl⟩
  | askedFact name => exact ⟨s.notes, fun _ _ => by simp only [replay, h]⟩
  | askedKey key => exact ⟨s.notes, fun _ _ => by simp only [replay, h]⟩
  | askedModules => exact ⟨s.notes, fun _ _ => by simp only [replay, h]⟩

lemma replay_cons_of_some {event : Event} {key : String} (h : reentry.callOn event = some key)
    (call : String → Session → Answer × Session) (events : List Event) (s : Session) :
    replay reentry call (event :: events) s =
      replay reentry call events
        { (call key s).2 with nested := (call key s).2.nested ++ [(key, (call key s).1)] } := by
  cases event with
  | noted n => cases h
  | askedFact name => simp only [replay, h]
  | askedKey key => simp only [replay, h]
  | askedModules => cases h

/-- The nested calls that events give rise to, all of them without an answer. -/
def missed (events : List Event) : List (String × Answer) :=
  (events.filterMap reentry.callOn).map fun key => (key, none)

/-- A piece of work whose nested calls are turned away leaves entries and count alone, and
adds its nested calls to the list of them. -/
lemma replay_turnedAway (events : List Event) (s : Session) :
    (replay reentry turnedAway events s).cache.entries = s.cache.entries ∧
      (replay reentry turnedAway events s).compileCount = s.compileCount ∧
      (replay reentry turnedAway events s).nested = s.nested ++ missed reentry events := by
  induction events generalizing s with
  | nil => simp [replay, missed]
  | cons event events ih =>
    cases hcall : reentry.callOn event with
    | none =>
      have hmissed : missed reentry (event :: events) = missed reentry events := by
        simp [missed, hcall]
      obtain ⟨notes, hreplay⟩ := replay_cons_of_none reentry hcall s
      rw [hmissed, hreplay]
      exact ih { s with notes := notes }
    | some key =>
      have hmissed : missed reentry (event :: events) = (key, none) :: missed reentry events := by
        simp [missed, hcall]
      obtain ⟨hentries, hcount, hnested⟩ := turnedAway_snd key s
      obtain ⟨ihentries, ihcount, ihnested⟩ := ih
        { (turnedAway key s).2 with
          nested := (turnedAway key s).2.nested ++ [(key, (turnedAway key s).1)] }
      rw [replay_cons_of_some reentry hcall, hmissed]
      refine ⟨ihentries.trans hentries, ihcount.trans hcount, ihnested.trans ?_⟩
      rw [hnested, turnedAway_fst, List.append_assoc, List.singleton_append]

/-- Under a held lock nested calls come to the same at every depth. -/
lemma replay_of_held (depth : Nat) (inline : InlineSource) (events : List Event) {s : Session}
    (held : lockHeld s.cache.entries = true) :
    replay reentry (enforceWithin env reentry (depth + 1) inline) events s =
      replay reentry turnedAway events s := by
  induction events generalizing s with
  | nil => rfl
  | cons event events ih =>
    cases hcall : reentry.callOn event with
    | none =>
      obtain ⟨notes, hreplay⟩ := replay_cons_of_none reentry hcall s
      rw [hreplay, hreplay]
      exact ih held
    | some key =>
      have hstill : lockHeld (turnedAway key s).2.cache.entries = true := by
        rw [(turnedAway_snd key s).1, held]
      rw [replay_cons_of_some reentry hcall, replay_cons_of_some reentry hcall,
        enforceWithin_of_held env reentry depth inline key held]
      exact ih hstill

/-! ## A call that is let in -/

lemma compileAndSelect_of_held (depth : Nat) (inline inline' : InlineSource)
    (profiles : List Value) (mapKey key : String) {s : Session}
    (held : lockHeld s.cache.entries = true) :
    compileAndSelect env reentry (enforceWithin env reentry (depth + 1) inline') inline profiles
        mapKey key s =
      compileAndSelect env reentry turnedAway inline profiles mapKey key s := by
  unfold compileAndSelect perform
  dsimp only
  rw [replay_of_held env reentry depth inline']
  exact held

lemma answerLocked_of_held (depth : Nat) (inline inline' : InlineSource) (key : String)
    {s : Session} (held : lockHeld s.cache.entries = true) :
    answerLocked env reentry (enforceWithin env reentry (depth + 1) inline') inline key s =
      answerLocked env reentry turnedAway inline key s := by
  unfold answerLocked perform
  rw [replay_of_held env reentry depth inline' _ held]
  have hstill : lockHeld (replay reentry turnedAway env.activeProfiles.events s).cache.entries =
      true := by
    rw [(replay_turnedAway reentry _ s).1, held]
  cases hp : env.activeProfiles.outcome with
  | error fault => rfl
  | ok profiles =>
    cases profiles with
    | nil => rfl
    | cons p ps =>
      simp only
      cases mapKey? (p :: ps) with
      | none => rfl
      | some mapKey =>
        simp only [Text.written]
        rw [compileAndSelect_of_held env reentry depth inline inline' _ mapKey key
          (by exact hstill)]

/-- What happens in a call between the taking and the releasing of the lock. -/
def attempt (inline : InlineSource) (key : String) (s : Session) :
    Except Fault Answer × Session :=
  answerLocked env reentry (enforceWithin env reentry 1 env.hostInline) inline key
    (s.readLock.2.setLock true)

/-- In an attempt every nested call is turned away. -/
lemma attempt_eq (inline : InlineSource) (key : String) (s : Session) :
    attempt env reentry inline key s =
      answerLocked env reentry turnedAway inline key (s.readLock.2.setLock true) :=
  answerLocked_of_held env reentry 0 inline env.hostInline key (by simp)

/-- A call is answered at once under a reserved key or a held lock; any other call is an
attempt, whose fault becomes no answer, and the release of the lock.  How deep nested calls
are followed does not matter. -/
theorem enforceWithin_eq (depth : Nat) (inline : InlineSource) (key : String) (s : Session) :
    enforceWithin env reentry (depth + 2) inline key s =
      if isReserved key || lockHeld s.cache.entries then turnedAway key s
      else
        ((settle key (attempt env reentry inline key s)).1,
          (settle key (attempt env reentry inline key s)).2.setLock false) := by
  cases hreserved : isReserved key with
  | true => simp [enforceWithin, turnedAway, hreserved]
  | false =>
    cases hheld : lockHeld s.cache.entries with
    | true => simpa using enforceWithin_of_held env reentry (depth + 1) inline key hheld
    | false =>
      have hread : s.readLock = (false, s.readLock.2) := by
        rw [← hheld, ← readLock_fst]
      have hlocked : lockHeld (s.readLock.2.setLock true).cache.entries = true := by simp
      simp only [Bool.or_self, Bool.false_eq_true, if_false]
      rw [enforceWithin, hreserved, hread, attempt_eq]
      simp only [Bool.false_eq_true, if_false]
      rw [answerLocked_of_held env reentry depth inline _ key hlocked]

/-- A call does not depend on the depth to which nested calls are followed. -/
theorem enforceFrom_eq_enforceWithin (depth : Nat) (inline : InlineSource) (key : String)
    (s : Session) :
    enforceFrom env reentry inline key s = enforceWithin env reentry (depth + 2) inline key s := by
  rw [enforceFrom, callDepth, enforceWithin_eq env reentry 0, enforceWithin_eq env reentry depth]

end Session

end ProfileCompiler
