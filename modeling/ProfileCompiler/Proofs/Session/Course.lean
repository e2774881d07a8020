import ProfileCompiler.Proofs.Session.Lock

/-!
# The course of a call

What a call does depends on the entries of the cache and not on the rest of the session, and
not on the nested calls that a host makes.  `Session.course` says it for a call that is let in:
how it ends, which map it makes, and how often it compiles.  Calls take this course
(`enforceFrom_serves`).

The values of parameters are stored one by one while their parts are selected, so a part that
cannot be selected might leave some values behind.  It does not, because whether a mode
selects a part of an assignment is a matter of the mode alone
(`Assignment.project_eq_error_iff`): the first assignment fails or none does.
-/

namespace ProfileCompiler

/-! ## Selecting parts -/

namespace Assignment

lemma named?_isSome (name : String) (a b : Assignment) :
    (a.named? name).isSome = (b.named? name).isSome := by
  unfold named?
  split
  · rfl
  · simp only [fields, Table.get?_cons, Table.get?_nil]
    repeat' (split <;> try rfl)

/-- Whether and how a mode fails to select a part does not depend on the assignment. -/
theorem project_eq_error_iff (mode : Value) (fault : Fault) (a b : Assignment) :
    a.project mode = .error fault ↔ b.project mode = .error fault := by
  have hsame : ∀ m : String, (a.named? m = none ↔ b.named? m = none) := by
    intro m
    rw [← Option.isNone_iff_eq_none, ← Option.isNone_iff_eq_none, ← Option.not_isSome,
      ← Option.not_isSome, named?_isSome m a b]
  unfold project
  cases mode.key? with
  | none => rfl
  | some k =>
    cases mode.text? with
    | none => rfl
    | some m =>
      simp only [Option.bind_some]
      cases ha : a.named? m with
      | none => rw [(hsame m).1 ha]
      | some v =>
        obtain ⟨w, hw⟩ : ∃ w, b.named? m = some w := by
          cases hb : b.named? m with
          | none => rw [(hsame m).2 hb] at ha; cases ha
          | some w => exact ⟨w, rfl⟩
        rw [hw]
        simp

end Assignment

namespace Compilation

/-- The parts of assignments that a mode selects, by parameter. -/
def parts (mode : Value) : Assignments → Except Fault Entries
  | [] => .ok []
  | (parameter, a) :: rest =>
    match a.project mode with
    | .error fault => .error fault
    | .ok part => (parts mode rest).map fun more => (.text parameter, part) :: more

/-- The values of assignments, by parameter. -/
def values (assignments : Assignments) : Table String Value :=
  assignments.map fun e => (e.1, e.2.value)

lemma get?_values (assignments : Assignments) (parameter : String) :
    (values assignments).get? parameter = (assignments.get? parameter).map Assignment.value := by
  induction assignments with
  | nil => rfl
  | cons e rest ih =>
    rw [values, List.map_cons, Table.get?_cons, Table.get?_cons]
    rw [values] at ih
    rw [ih]
    split <;> rfl

lemma distinct_values {assignments : Assignments} (h : Table.Distinct assignments) :
    Table.Distinct (values assignments) := by
  unfold Table.Distinct values
  rw [List.pairwise_map]
  exact h

/-- Parts cannot be selected only where some assignment's part cannot. -/
lemma exists_project_of_parts {mode : Value} {assignments : Assignments} {fault : Fault}
    (h : parts mode assignments = .error fault) :
    ∃ a : Assignment, a.project mode = .error fault := by
  induction assignments with
  | nil => cases h
  | cons e rest ih =>
    obtain ⟨parameter, a⟩ := e
    unfold parts at h
    cases ha : a.project mode with
    | error other =>
      rw [ha] at h
      cases h
      exact ⟨a, ha⟩
    | ok part =>
      rw [ha] at h
      cases hrest : parts mode rest with
      | error other =>
        rw [hrest] at h
        cases h
        exact ih hrest
      | ok more => rw [hrest] at h; cases h

end Compilation

namespace Session

/-- The session after storing entries one after the other. -/
def storeAll (s : Session) (entries : List (String × Value)) : Session :=
  { s with cache := { s.cache with entries := s.cache.entries.putAll entries } }

/-- Either every part is selected and every value stored, or nothing is stored. -/
theorem storeParts_eq (mode : Value) (assignments : Assignments) (s : Session) :
    storeParts mode assignments s =
      match Compilation.parts mode assignments with
      | .error fault => (.error fault, s)
      | .ok parts => (.ok parts, s.storeAll (Compilation.values assignments)) := by
  induction assignments generalizing s with
  | nil => rfl
  | cons e rest ih =>
    obtain ⟨parameter, a⟩ := e
    unfold storeParts Compilation.parts
    cases ha : a.project mode with
    | error fault => rfl
    | ok part =>
      simp only
      rw [ih]
      cases hrest : Compilation.parts mode rest with
      | ok more => rfl
      | error fault =>
        -- A later failure would have been the failure of this assignment as well.
        obtain ⟨b, hb⟩ := Compilation.exists_project_of_parts hrest
        rw [Assignment.project_eq_error_iff mode fault b a, ha] at hb
        cases hb

/-- A compiled map can always be searched. -/
lemma select_mapping (key : String) (map : Entries) :
    ∃ answer, select key (.mapping map) = .ok answer := by
  unfold select
  split
  · exact ⟨_, rfl⟩
  · simp only [occurs]
    cases Table.has (.text (knockoutMark ++ key)) map with
    | true => exact ⟨none, rfl⟩
    | false =>
      cases Table.has (.text key) map with
      | true => exact ⟨Table.get? (.text key) map, rfl⟩
      | false => exact ⟨none, rfl⟩

end Session

/-! ## The course -/

/-- A map that a compilation has made, with what it was made from and the key under which it is
cached. -/
structure Compiled where
  profiles : List Value
  cacheKey : String
  assignments : Assignments
  map : Entries

/-- What a compiled map leaves in the cache: the value of every parameter, and then the map. -/
def Compiled.writes (m : Compiled) : List (String × Value) :=
  Compilation.values m.assignments ++ [(m.cacheKey, .mapping m.map)]

/-- What a call that is let in does. -/
structure Course where
  /-- How it ends, a fault included. -/
  result : Except Fault Answer
  /-- The map that it makes and stores, if it makes one. -/
  made : Option Compiled
  /-- How many compilations it begins. -/
  compiles : Nat

/-- The entries that a call stores besides the lock. -/
def Course.writes (c : Course) : List (String × Value) :=
  match c.made with
  | some m => m.writes
  | none => []

namespace Session

variable (env : Environment) (inline : InlineSource) (key : String)

/-- The course of a call with the given active profiles that finds no map under their key. -/
def compileCourse (profiles : List Value) (mapKey : String) : Course :=
  match (Compilation.run env inline profiles key).outcome with
  | .error fault => ⟨.error fault, none, 1⟩
  | .ok (.view v) => ⟨.ok (some v), none, 1⟩
  | .ok (.map assignments) =>
    match Compilation.parts env.mode assignments with
    | .error fault => ⟨.error fault, none, 1⟩
    | .ok parts =>
      let map := Compilation.withSeconds parts
      ⟨select key (.mapping map), some ⟨profiles, mapKey, assignments, map⟩, 1⟩

/-- The map cached under a key that answers the key asked for. -/
def cachedMap? (mapKey : String) (entries : Table String Value) : Option Value :=
  if Compilation.isCatalogKey key then none else entries.get? mapKey

/-- The course of a call that is let in, from the entries of the cache. -/
def course (entries : Table String Value) : Course :=
  match env.activeProfiles.outcome with
  | .error fault => ⟨.error fault, none, 0⟩
  | .ok [] => ⟨.ok none, none, 0⟩
  | .ok profiles =>
    match mapKey? profiles with
    | none => ⟨.error .overlongNumber, none, 0⟩
    | some mapKey =>
      match cachedMap? key mapKey entries with
      | some map => ⟨select key map, none, 0⟩
      | none => compileCourse env inline key profiles mapKey

variable {env inline key}

/-- A compilation that has made a map answers from it. -/
lemma result_of_made_compileCourse {profiles : List Value} {mapKey : String} {m : Compiled}
    (h : (compileCourse env inline key profiles mapKey).made = some m) :
    (compileCourse env inline key profiles mapKey).result = select key (.mapping m.map) := by
  unfold compileCourse at h ⊢
  cases hrun : (Compilation.run env inline profiles key).outcome with
  | error fault => simp [hrun] at h
  | ok product =>
    cases product with
    | view v => simp [hrun] at h
    | map assignments =>
      cases hparts : Compilation.parts env.mode assignments with
      | error fault => simp [hrun, hparts] at h
      | ok parts =>
        simp only [hrun, hparts, Option.some.injEq] at h ⊢
        rw [← h]

/-- A call that has made a map answers from it. -/
lemma result_of_made {entries : Table String Value} {m : Compiled}
    (h : (course env inline key entries).made = some m) :
    (course env inline key entries).result = select key (.mapping m.map) := by
  unfold course at h ⊢
  cases hp : env.activeProfiles.outcome with
  | error fault => simp [hp] at h
  | ok profiles =>
    cases profiles with
    | nil => simp [hp] at h
    | cons p ps =>
      cases hkey : mapKey? (p :: ps) with
      | none => simp [hp, hkey] at h
      | some mapKey =>
        cases hmap : cachedMap? key mapKey entries with
        | some map => simp [hp, hkey, hmap] at h
        | none =>
          simp only [hp, hkey, hmap] at h ⊢
          exact result_of_made_compileCourse h

variable (env inline key)

/-! ## Calls take their course -/

/-- A piece of work followed a course: it ended so, and changed entries and count so.  Its
nested calls had no answer. -/
structure Follows (c : Course) (s : Session) (r : Except Fault Answer × Session) : Prop where
  result : r.1 = c.result
  entries : r.2.cache.entries = s.cache.entries.putAll c.writes
  compileCount : r.2.compileCount = s.compileCount + c.compiles
  nested : ∃ keys : List String, r.2.nested = s.nested ++ keys.map fun k => (k, none)

variable (reentry : Reentry)

lemma compileAndSelect_follows (profiles : List Value) (mapKey : String) (s : Session) :
    Follows (compileCourse env inline key profiles mapKey) s
      (compileAndSelect env reentry turnedAway inline profiles mapKey key s) := by
  let begun : Session :=
    { s.note (.compiling profiles) with compileCount := s.compileCount + 1 }
  obtain ⟨hentries, hcount, hnested⟩ :=
    replay_turnedAway reentry (Compilation.run env inline profiles key).events begun
  have hkeys : ∃ keys : List String,
      (replay reentry turnedAway (Compilation.run env inline profiles key).events begun).nested =
        s.nested ++ keys.map fun k => (k, none) := ⟨_, hnested⟩
  unfold compileAndSelect compileCourse perform
  dsimp only
  cases hrun : (Compilation.run env inline profiles key).outcome with
  | error fault => exact ⟨rfl, hentries, hcount, hkeys⟩
  | ok product =>
    cases product with
    | view v => exact ⟨rfl, hentries, hcount, hkeys⟩
    | map assignments =>
      simp only [storeParts_eq]
      cases hparts : Compilation.parts env.mode assignments with
      | error fault => exact ⟨rfl, hentries, hcount, hkeys⟩
      | ok parts =>
        refine ⟨rfl, ?_, hcount, hkeys⟩
        simp only [cache_note, entries_store, storeAll, Course.writes, Compiled.writes,
          Table.putAll_append, Table.putAll_cons, Table.putAll_nil]
        exact congrArg (fun t => Table.put mapKey _ (Table.putAll t _)) hentries

/-- A course taken after a piece of work that left entries and count alone. -/
lemma Follows.after {c : Course} {s s' : Session} {r : Except Fault Answer × Session}
    (h : Follows c s' r) (hentries : s'.cache.entries = s.cache.entries)
    (hcount : s'.compileCount = s.compileCount)
    (hnested : ∃ keys : List String, s'.nested = s.nested ++ keys.map fun k => (k, none)) :
    Follows c s r where
  result := h.result
  entries := by rw [h.entries, hentries]
  compileCount := by rw [h.compileCount, hcount]
  nested := by
    obtain ⟨before, hbefore⟩ := hnested
    obtain ⟨later, hlater⟩ := h.nested
    exact ⟨before ++ later, by rw [hlater, hbefore, List.map_append, List.append_assoc]⟩

lemma isSome_cachedMap? (mapKey : String) (c : Cache) :
    (!Compilation.isCatalogKey key && c.has mapKey) =
      (cachedMap? key mapKey c.entries).isSome := by
  unfold cachedMap? Cache.has Table.has
  cases Compilation.isCatalogKey key <;> rfl

lemma fetch_cachedMap? {mapKey : String} {c : Cache} {map : Value}
    (h : cachedMap? key mapKey c.entries = some map) :
    (c.fetch mapKey .null).1 = map := by
  unfold cachedMap? at h
  split at h
  · cases h
  · rw [fetch_fst, h]
    rfl

lemma answerLocked_follows (s : Session) :
    Follows (course env inline key s.cache.entries) s
      (answerLocked env reentry turnedAway inline key s) := by
  obtain ⟨hentries, hcount, hnested⟩ := replay_turnedAway reentry env.activeProfiles.events s
  have hkeys : ∃ keys : List String,
      (replay reentry turnedAway env.activeProfiles.events s).nested =
        s.nested ++ keys.map fun k => (k, none) := ⟨_, hnested⟩
  unfold answerLocked course perform
  dsimp only
  cases hp : env.activeProfiles.outcome with
  | error fault => exact ⟨rfl, hentries, hcount, hkeys⟩
  | ok profiles =>
    cases profiles with
    | nil => exact ⟨rfl, hentries, hcount, hkeys⟩
    | cons p ps =>
      simp only
      cases mapKey? (p :: ps) with
      | none => exact ⟨rfl, hentries, hcount, hkeys⟩
      | some mapKey =>
        simp only [Text.written, cache_note, isSome_cachedMap?, hentries]
        cases hmap : cachedMap? key mapKey s.cache.entries with
        | none =>
          exact (compileAndSelect_follows env inline key reentry (p :: ps) mapKey _).after hentries
            hcount hkeys
        | some map =>
          rw [← hentries] at hmap
          refine ⟨?_, (entries_fetch _ _ _).trans hentries, hcount, hkeys⟩
          simp only [Option.isSome_some, if_true, fetch_cachedMap? key hmap]

/-! ## From the taking of the lock to its release -/

/-- The key of a map is made from the fingerprint of the profiles. -/
lemma mapKey?_eq_some_iff {profiles : List Value} {mapKey : String} :
    mapKey? profiles = some mapKey ↔
      ∃ fingerprint, Fingerprint.ofList? profiles = some fingerprint ∧
        mapKeyStart ++ fingerprint = mapKey :=
  Option.map_eq_some_iff

/-- No compiled map is cached under the key of the lock. -/
lemma mapKey_ne_lockKey {profiles : List Value} {mapKey : String}
    (h : mapKey? profiles = some mapKey) : mapKey ≠ lockKey := by
  rintro rfl
  obtain ⟨fingerprint, -, hkey⟩ := mapKey?_eq_some_iff.1 h
  have hchars : mapKeyStart.toList ++ fingerprint.toList = lockKey.toList := by
    rw [← String.toList_append]
    exact congrArg String.toList hkey
  have hfirst : (mapKeyStart.toList ++ fingerprint.toList)[0]? = some 'c' := rfl
  rw [hchars] at hfirst
  exact absurd hfirst (by decide)

/-- Different fingerprints make different keys. -/
lemma append_mapKeyStart_inj {fingerprint fingerprint' : String} :
    mapKeyStart ++ fingerprint = mapKeyStart ++ fingerprint' ↔ fingerprint = fingerprint' := by
  refine ⟨fun h => ?_, congrArg _⟩
  have hchars := congrArg String.toList h
  rw [String.toList_append, String.toList_append] at hchars
  exact String.toList_injective (List.append_cancel_left hchars)

lemma cachedMap?_put_lock {profiles : List Value} {mapKey : String}
    (h : mapKey? profiles = some mapKey) (entries : Table String Value) (v : Value) :
    cachedMap? key mapKey (entries.put lockKey v) = cachedMap? key mapKey entries := by
  unfold cachedMap?
  rw [Table.get?_put_of_ne (beq_eq_false_iff_ne.2 (mapKey_ne_lockKey h).symm)]

lemma course_put_lock (entries : Table String Value) (v : Value) :
    course env inline key (entries.put lockKey v) = course env inline key entries := by
  unfold course
  cases env.activeProfiles.outcome with
  | error fault => rfl
  | ok profiles =>
    cases profiles with
    | nil => rfl
    | cons p ps =>
      cases hkey : mapKey? (p :: ps) with
      | none => simp only [hkey]
      | some mapKey => simp only [hkey, cachedMap?_put_lock key hkey]

/-- Whether a call is let in. -/
def admits (key : String) (entries : Table String Value) : Bool :=
  !(isReserved key || lockHeld entries)

/-- The answer of a call that ended so: a fault is no answer. -/
def answerOf : Except Fault Answer → Answer
  | .ok answer => answer
  | .error _ => none

/-- The answer to a key, from the entries of the cache. -/
def reply (entries : Table String Value) : Answer :=
  if admits key entries then answerOf (course env inline key entries).result else none

/-- What a call stores, the taking and the releasing of the lock included. -/
def deposits (entries : Table String Value) : List (String × Value) :=
  if admits key entries then
    (lockKey, .bool true) ::
      ((course env inline key entries).writes ++ [(lockKey, .bool false)])
  else []

/-- How many compilations a call begins. -/
def compilesOf (entries : Table String Value) : Nat :=
  if admits key entries then (course env inline key entries).compiles else 0

/-- The attempt of a call that is let in takes its course, the lock being held. -/
lemma attempt_follows (s : Session) :
    Follows (course env inline key s.cache.entries) (s.setLock true)
      (attempt env reentry inline key s) := by
  obtain ⟨hentries, hcount, hnested⟩ := readLock_snd s
  have h := answerLocked_follows env inline key reentry (s.readLock.2.setLock true)
  rw [entries_setLock, course_put_lock, hentries, ← attempt_eq] at h
  refine h.after ?_ hcount ⟨[], ?_⟩
  · rw [entries_setLock, entries_setLock, hentries]
  · rw [nested_setLock, nested_setLock, hnested, List.map_nil, List.append_nil]

lemma settle_fst (r : Except Fault Answer × Session) : (settle key r).1 = answerOf r.1 := by
  obtain ⟨result, s⟩ := r
  cases result <;> rfl

lemma settle_snd (r : Except Fault Answer × Session) :
    (settle key r).2.cache = r.2.cache ∧ (settle key r).2.compileCount = r.2.compileCount ∧
      (settle key r).2.nested = r.2.nested := by
  obtain ⟨result, s⟩ := r
  cases result <;> exact ⟨rfl, rfl, rfl⟩

/-- What a call answers and leaves behind, from the entries of the cache alone.  The host that
calls back adds nested calls without answers and nothing else. -/
structure Serves (s : Session) (r : Answer × Session) : Prop where
  answer : r.1 = reply env inline key s.cache.entries
  entries : r.2.cache.entries = s.cache.entries.putAll (deposits env inline key s.cache.entries)
  compileCount : r.2.compileCount = s.compileCount + compilesOf env inline key s.cache.entries
  nested : ∃ keys : List String, r.2.nested = s.nested ++ keys.map fun k => (k, none)

/-- Every call, let in or not, does what the entries of the cache say. -/
theorem enforceFrom_serves (s : Session) :
    Serves env inline key s (enforceFrom env reentry inline key s) := by
  rw [enforceFrom, callDepth, enforceWithin_eq]
  cases hrefused : isReserved key || lockHeld s.cache.entries with
  | true =>
    have hadmits : admits key s.cache.entries = false := by rw [admits, hrefused]; rfl
    obtain ⟨hentries, hcount, hnested⟩ := turnedAway_snd key s
    refine ⟨?_, ?_, ?_, [], ?_⟩
    · simp [reply, hadmits, turnedAway_fst]
    · simp [deposits, hadmits, hentries]
    · simp [compilesOf, hadmits, hcount]
    · simp [hnested]
  | false =>
    have hadmits : admits key s.cache.entries = true := by rw [admits, hrefused]; rfl
    have h := attempt_follows env inline key reentry s
    obtain ⟨hcache, hcount, hnested⟩ := settle_snd key (attempt env reentry inline key s)
    simp only [Bool.false_eq_true, if_false]
    refine ⟨?_, ?_, ?_, ?_⟩
    · rw [settle_fst, h.result, reply, if_pos hadmits]
    · rw [entries_setLock, hcache, h.entries, deposits, if_pos hadmits, Table.putAll_cons,
        Table.putAll_append]
      rfl
    · rw [compileCount_setLock, hcount, h.compileCount, compilesOf, if_pos hadmits]
      rfl
    · rw [nested_setLock, hnested]
      exact h.nested

end Session

/-! ## Surroundings with one document -/

namespace Environment

/-- The checks that give the parameters of a profile their values, in order. -/
def checksOf (profile : String) (parameters : List (String × Value)) : List (String × Value) :=
  parameters.zipIdx.map fun e =>
    (profile ++ toString e.2,
      .ofTexts [("type", .text "puppet"),
        ("settings", .ofTexts [("parameter", .text e.1.1), ("value", e.1.2)])])

/-- Surroundings in which all there is stands inline in one document: some profiles, with the
values that they give to parameters.  The mode is `value`. -/
def ofProfiles (profiles : List (String × List (String × Value))) : Environment where
  host := Site.toHost
    { values :=
        [(.text "compliance_map", .ofTexts
          [("version", .text "2.0.0"),
            ("profiles", .ofTexts <| profiles.map fun p =>
              (p.1, .ofTexts [("checks", .ofTexts <| (checksOf p.1 p.2).map fun c =>
                (c.1, .bool true))])),
            ("checks", .ofTexts <| profiles.flatMap fun p => checksOf p.1 p.2)])],
      facts := [],
      modules := .list [] }
  documents := .done []
  enforcementKey := "compliance_markup::enforcement"
  mode := .text "value"

end Environment

end ProfileCompiler
