import ProfileCompiler.Proofs.Session.Course
import ProfileCompiler.Proofs.Session.Listing
import ProfileCompiler.Session.Step

/-!
# Runs of calls with changing profiles

A run of calls on one session in which nothing changes but the host's answer under the
enforcement key (`Session.serveAll`).  The map that a call makes is a matter of that answer
alone (`Session.compiledFor`), and the entries of the cache after a run are a matter of the
maps that were made in it, in order (`Session.compilations`).

## Main results

* `get?_serve`, `get?_serveAll`: under any key but that of the lock stands what the latest map
  that left something there has left.
* `result_courseOf`: a call is answered from the map that is cached for its profiles, or else
  from the one that is compiled for them.
* `step_enforce_eq_serve`: setting the profiles and asking for a key is such a call.
-/

namespace ProfileCompiler

/-! ## What a compiled map leaves in the cache -/

namespace Resolution

lemma distinct_assign {assignments assignments' : Assignments} {s : Specification}
    (hd : Table.Distinct assignments) (h : assign assignments s = .ok assignments') :
    Table.Distinct assignments' := by
  unfold assign at h
  cases hget : assignments.get? s.parameter with
  | none =>
    simp only [hget, Except.ok.injEq] at h
    rw [← h]
    exact Table.distinct_put hd _ _
  | some a =>
    simp only [hget] at h
    cases htake : a.take s with
    | error fault => rw [htake] at h; cases h
    | ok taken =>
      rw [htake] at h
      cases h
      exact Table.distinct_put hd _ _

lemma distinct_assignAll {specs : List Specification} {assignments assignments' : Assignments}
    (hd : Table.Distinct assignments) (h : assignAll assignments specs = .ok assignments') :
    Table.Distinct assignments' := by
  induction specs generalizing assignments with
  | nil =>
    cases h
    exact hd
  | cons s rest ih =>
    unfold assignAll at h
    cases hone : assign assignments s with
    | error fault => rw [hone] at h; cases h
    | ok next =>
      rw [hone] at h
      exact ih (distinct_assign hd hone) h

/-- No parameter is assigned twice. -/
lemma distinct_resolve {profiles : Entries} {index : CheckIndex} {active : List Value}
    {assignments : Assignments} (h : (resolve profiles index active).outcome = .ok assignments) :
    Table.Distinct assignments := by
  unfold resolve at h
  rw [Told.outcome_bind] at h
  cases hcollect : (collect profiles index active).outcome with
  | error fault => rw [hcollect] at h; cases h
  | ok specs =>
    rw [hcollect] at h
    change (merge specs).outcome = _ at h
    unfold merge at h
    rw [Told.outcome_bind] at h
    cases hnotes : (noteSeveral ((parameters specs).filter (isRepeated specs))).outcome with
    | error fault => rw [hnotes] at h; cases h
    | ok _ =>
      rw [hnotes] at h
      exact distinct_assignAll Table.distinct_nil h

end Resolution

namespace Compilation

lemma distinct_assignments? {env : Environment} {inline : InlineSource} {profiles : List Value}
    {assignments : Assignments} (h : assignments? env inline profiles = some assignments) :
    Table.Distinct assignments := by
  unfold assignments? at h
  rw [run_outcome_of_not_catalog (by decide)] at h
  cases hcatalog : (catalog env inline).outcome with
  | error fault => simp [hcatalog, Except.bind] at h
  | ok c =>
    cases hindex : (CheckIndex.build c.checks c.ces).outcome with
    | error fault => simp [hcatalog, hindex, Except.bind] at h
    | ok index =>
      cases hresolve : (Resolution.resolve c.profiles index profiles).outcome with
      | error fault => simp [hcatalog, hindex, hresolve, Except.bind, Except.map] at h
      | ok resolved =>
        simp only [hcatalog, hindex, hresolve, Except.bind, Except.map, Option.some.injEq] at h
        rw [← h]
        exact Resolution.distinct_resolve hresolve

/-- Only a catalog key is answered by a view. -/
lemma run_ne_view {key : String} (hkey : isCatalogKey key = false) (env : Environment)
    (inline : InlineSource) (profiles : List Value) (v : Value) :
    (run env inline profiles key).outcome ≠ .ok (.view v) := by
  rw [run_outcome_of_not_catalog hkey]
  cases (catalog env inline).outcome with
  | error fault => exact nofun
  | ok c =>
    cases hindex : (CheckIndex.build c.checks c.ces).outcome with
    | error fault => simp [hindex, Except.bind]
    | ok index =>
      cases hresolve : (Resolution.resolve c.profiles index profiles).outcome with
      | error fault => simp [hindex, hresolve, Except.bind, Except.map]
      | ok resolved => simp [hindex, hresolve, Except.bind, Except.map]

/-- A catalog key is answered by nothing else. -/
lemma run_ne_map {key : String} (hkey : isCatalogKey key = true) (env : Environment)
    (inline : InlineSource) (profiles : List Value) (assignments : Assignments) :
    (run env inline profiles key).outcome ≠ .ok (.map assignments) := by
  unfold run
  rw [Told.outcome_bind]
  cases (catalog env inline).outcome with
  | error fault => exact nofun
  | ok c =>
    have hkeys : key = profilesKey ∨ key = catalogKey := by
      simpa [isCatalogKey] using hkey
    show ((if key = profilesKey then _ else _ : Told Product)).outcome ≠ _
    by_cases hprofiles : key = profilesKey
    · rw [if_pos hprofiles]
      exact nofun
    · rw [if_neg hprofiles, if_pos (hkeys.resolve_left hprofiles)]
      exact nofun

/-- The map that a compilation makes for the given profiles, if they have a fingerprint and it
succeeds. -/
def compiled? (env : Environment) (inline : InlineSource) (profiles : List Value) :
    Option Compiled :=
  match Session.mapKey? profiles, assignments? env inline profiles with
  | some mapKey, some assignments =>
    match parts env.mode assignments with
    | .error _ => none
    | .ok parts => some ⟨profiles, mapKey, assignments, withSeconds parts⟩
  | _, _ => none

/-- No map is made for profiles without a fingerprint. -/
lemma compiled?_of_no_key {env : Environment} {inline : InlineSource} {profiles : List Value}
    (h : Session.mapKey? profiles = none) : compiled? env inline profiles = none := by
  rw [compiled?, h]

/-- What a compiled map was made from. -/
lemma of_compiled? {env : Environment} {inline : InlineSource} {profiles : List Value}
    {m : Compiled} (h : compiled? env inline profiles = some m) :
    m.profiles = profiles ∧ Session.mapKey? profiles = some m.cacheKey ∧
      Table.Distinct m.assignments ∧
      ∃ selected, parts env.mode m.assignments = .ok selected ∧
        m.map = withSeconds selected := by
  unfold compiled? at h
  split at h
  · rename_i mapKey assignments hkey hassignments
    split at h
    · cases h
    · rename_i selected hparts
      cases h
      exact ⟨rfl, hkey, distinct_assignments? hassignments, selected, hparts, rfl⟩
  · cases h

end Compilation

/-- The value of a parameter from which a map was compiled. -/
def Compiled.value? (m : Compiled) (parameter : String) : Option Value :=
  (m.assignments.get? parameter).map Assignment.value

/-- The value that a compiled map leaves under a cache key: itself under its own key, and under
the name of a parameter the parameter's value. -/
def Compiled.left (m : Compiled) (key : String) : Option Value :=
  if m.cacheKey = key then some (.mapping m.map) else m.value? key

lemma Compiled.get?_writes {m : Compiled} (hd : Table.Distinct m.assignments) (key : String) :
    Table.get? key m.writes.reverse = m.left key := by
  unfold Compiled.writes Compiled.left Compiled.value?
  rw [List.reverse_append, List.reverse_singleton, List.singleton_append, Table.get?_cons,
    Table.get?_reverse (Compilation.distinct_values hd), Compilation.get?_values]
  simp only [beq_iff_eq]

namespace Session

variable (env : Environment) (inline : InlineSource) (profiles : List Value)

/-- The course of a compilation for any key but the two catalog keys. -/
lemma compileCourse_of_not_catalog {key mapKey : String}
    (hkey : Compilation.isCatalogKey key = false) (hmapKey : mapKey? profiles = some mapKey) :
    (compileCourse env inline key profiles mapKey).made =
        Compilation.compiled? env inline profiles ∧
      answerOf (compileCourse env inline key profiles mapKey).result =
        (Compilation.compiled? env inline profiles).elim none fun m =>
          answerOf (select key (.mapping m.map)) := by
  have hrun : (Compilation.run env inline profiles key).outcome =
      (Compilation.run env inline profiles Compilation.dumpKey).outcome := by
    rw [Compilation.run_outcome_of_not_catalog hkey,
      Compilation.run_outcome_of_not_catalog (by decide)]
  unfold compileCourse Compilation.compiled? Compilation.assignments?
  rw [hrun, hmapKey]
  cases hdump : (Compilation.run env inline profiles Compilation.dumpKey).outcome with
  | error fault => exact ⟨rfl, rfl⟩
  | ok product =>
    cases product with
    | view v => exact absurd hdump (Compilation.run_ne_view (by decide) env inline profiles v)
    | map assignments =>
      simp only
      cases Compilation.parts env.mode assignments with
      | error fault => exact ⟨rfl, rfl⟩
      | ok parts => exact ⟨rfl, rfl⟩

/-- A compilation for a catalog key makes no map. -/
lemma made_of_catalog {key : String} (hkey : Compilation.isCatalogKey key = true)
    (mapKey : String) : (compileCourse env inline key profiles mapKey).made = none := by
  unfold compileCourse
  cases hrun : (Compilation.run env inline profiles key).outcome with
  | error fault => rfl
  | ok product =>
    cases product with
    | view v => rfl
    | map assignments =>
      exact absurd hrun (Compilation.run_ne_map hkey env inline profiles assignments)

end Session

/-! ## Calls -/

/-- A call, with the host's answer under the enforcement key at the time. -/
structure Call where
  listing : Except Fault Answer
  key : String

namespace Session

variable (env : Environment) (reentry : Reentry) (lookup : Option InlineSource)

/-- What a call answers and leaves behind. -/
def serve (c : Call) (s : Session) : Answer × Session :=
  enforceFrom (env.listing c.listing) reentry ((env.listing c.listing).inlineFrom lookup) c.key s

/-- The answers of calls made one after the other, and the session after them. -/
def serveAll : List Call → Session → List Answer × Session
  | [], s => ([], s)
  | c :: calls, s =>
    let (answer, s) := serve env reentry lookup c s
    let (answers, s) := serveAll calls s
    (answer :: answers, s)

/-- What stands in the cache where the map of some profiles is looked for. -/
def cachedFor? (profiles : List Value) (entries : Table String Value) : Option Value :=
  (mapKey? profiles).bind entries.get?

/-- The map that is compiled while the host answers the enforcement key so. -/
def compiledFor (listing : Except Fault Answer) : Option Compiled :=
  match listing.map Environment.profileList with
  | .ok (p :: ps) =>
    Compilation.compiled? (env.listing listing) ((env.listing listing).inlineFrom lookup) (p :: ps)
  | _ => none

/-- The course that a call takes if it is let in. -/
def courseOf (c : Call) (entries : Table String Value) : Course :=
  course (env.listing c.listing) ((env.listing c.listing).inlineFrom lookup) c.key entries

/-- The map that a call makes, if it makes one. -/
def madeBy (c : Call) (entries : Table String Value) : Option Compiled :=
  if admits c.key entries then (courseOf env lookup c entries).made else none

/-- The maps that are made in a run of calls, in order. -/
def compilations : List Call → Session → List Compiled
  | [], _ => []
  | c :: calls, s =>
    (madeBy env lookup c s.cache.entries).toList ++
      compilations calls (serve env reentry lookup c s).2

/-- The latest value that maps made in this order leave under a key. -/
def latest (made : List Compiled) (key : String) : Option Value :=
  made.reverse.findSome? fun m => m.left key

lemma latest_append (made made' : List Compiled) (key : String) :
    latest (made ++ made') key = (latest made' key).or (latest made key) := by
  unfold latest
  rw [List.reverse_append, List.findSome?_append]

lemma latest_toList (m : Option Compiled) (key : String) :
    latest m.toList key = m.bind fun m => m.left key := by
  cases m with
  | none => rfl
  | some m =>
    unfold latest
    simp only [Option.toList_some, List.reverse_singleton, List.findSome?_cons,
      List.findSome?_nil, Option.bind_some]
    cases m.left key <;> rfl

variable {env reentry lookup}

/-! ## One call -/

/-- What the map was made from that is compiled while the host answers so. -/
lemma of_compiledFor {listing : Except Fault Answer} {m : Compiled}
    (h : compiledFor env lookup listing = some m) :
    (listing.map Environment.profileList = .ok m.profiles ∧ m.profiles ≠ []) ∧
      mapKey? m.profiles = some m.cacheKey ∧ Table.Distinct m.assignments ∧
      ∃ selected, Compilation.parts env.mode m.assignments = .ok selected ∧
        m.map = Compilation.withSeconds selected := by
  unfold compiledFor at h
  split at h
  · rename_i p ps hlist
    obtain ⟨hprofiles, hkey, hdistinct, hparts⟩ := Compilation.of_compiled? h
    rw [hprofiles]
    exact ⟨⟨hlist, List.cons_ne_nil p ps⟩, hkey, hdistinct, hparts⟩
  · cases h

/-- The same map is compiled however the host lists the profiles. -/
lemma compiledFor_congr {listing listing' : Except Fault Answer} {profiles : List Value}
    (h : listing.map Environment.profileList = .ok profiles)
    (h' : listing'.map Environment.profileList = .ok profiles) :
    compiledFor env lookup listing = compiledFor env lookup listing' := by
  unfold compiledFor
  rw [h, h']
  cases profiles with
  | nil => rfl
  | cons p ps =>
    simp only [Compilation.compiled?]
    rw [Compilation.assignments?_listing_congr lookup (List.cons_ne_nil p ps) h h']
    rfl

/-- A call makes the map that belongs to the host's answer. -/
lemma compiledFor_of_made {c : Call} {entries : Table String Value} {m : Compiled}
    (h : (courseOf env lookup c entries).made = some m) :
    compiledFor env lookup c.listing = some m := by
  unfold courseOf course at h
  rw [Environment.activeProfiles_listing] at h
  unfold compiledFor
  cases hlist : c.listing.map Environment.profileList with
  | error fault => simp [hlist] at h
  | ok profiles =>
    cases profiles with
    | nil => simp [hlist] at h
    | cons p ps =>
      simp only [hlist] at h ⊢
      cases hmapKey : mapKey? (p :: ps) with
      | none => simp [hmapKey] at h
      | some mapKey =>
        simp only [hmapKey] at h
        split at h
        · cases h
        · cases hkey : Compilation.isCatalogKey c.key with
          | true =>
            rw [made_of_catalog _ _ _ hkey] at h
            cases h
          | false =>
            rw [(compileCourse_of_not_catalog _ _ _ hkey hmapKey).1] at h
            exact h

lemma madeBy_compiledFor {c : Call} {entries : Table String Value} {m : Compiled}
    (h : madeBy env lookup c entries = some m) : compiledFor env lookup c.listing = some m := by
  unfold madeBy at h
  split at h
  · exact compiledFor_of_made h
  · cases h

lemma entries_serve (c : Call) (s : Session) :
    (serve env reentry lookup c s).2.cache.entries =
      if admits c.key s.cache.entries then
        ((s.cache.entries.put lockKey (.bool true)).putAll
          (courseOf env lookup c s.cache.entries).writes).put lockKey (.bool false)
      else s.cache.entries := by
  have h := (enforceFrom_serves (env.listing c.listing)
    ((env.listing c.listing).inlineFrom lookup) c.key reentry s).entries
  refine h.trans ?_
  unfold deposits
  split
  · rw [Table.putAll_cons, Table.putAll_append]
    rfl
  · rfl

/-- A call leaves a free lock free. -/
lemma lockHeld_serve (c : Call) {s : Session} (free : lockHeld s.cache.entries = false) :
    lockHeld (serve env reentry lookup c s).2.cache.entries = false := by
  rw [entries_serve]
  split
  · exact lockHeld_put_lock _ _
  · exact free

/-- Under any key but that of the lock a call leaves what its map leaves there, or else what
was there. -/
lemma get?_serve (c : Call) (s : Session) {key : String} (hkey : key ≠ lockKey) :
    (serve env reentry lookup c s).2.cache.entries.get? key =
      ((madeBy env lookup c s.cache.entries).bind fun m => m.left key).or
        (s.cache.entries.get? key) := by
  have hne : (lockKey == key) = false := beq_eq_false_iff_ne.2 hkey.symm
  rw [entries_serve]
  unfold madeBy
  by_cases hadmits : admits c.key s.cache.entries = true
  · rw [if_pos hadmits, if_pos hadmits, Table.get?_put_of_ne hne, Table.get?_putAll,
      Table.get?_put_of_ne hne]
    cases hmade : (courseOf env lookup c s.cache.entries).made with
    | none =>
      rw [Course.writes, hmade]
      rfl
    | some m =>
      rw [Course.writes, hmade, Option.bind_some,
        Compiled.get?_writes (of_compiledFor (compiledFor_of_made hmade)).2.2.1]
  · rw [if_neg hadmits, if_neg hadmits]
    rfl

/-! ## Runs of calls -/

/-- Under any key but that of the lock stands after a run what the latest map has left there
that left anything, or else what stood there before. -/
theorem get?_serveAll (calls : List Call) (s : Session) {key : String} (hkey : key ≠ lockKey) :
    (serveAll env reentry lookup calls s).2.cache.entries.get? key =
      (latest (compilations env reentry lookup calls s) key).or (s.cache.entries.get? key) := by
  induction calls generalizing s with
  | nil => rfl
  | cons c calls ih =>
    rw [compilations, latest_append, latest_toList, Option.or_assoc, ← get?_serve c s hkey]
    exact ih _

lemma serveAll_append (calls calls' : List Call) (s : Session) :
    (serveAll env reentry lookup (calls ++ calls') s).2 =
      (serveAll env reentry lookup calls' (serveAll env reentry lookup calls s).2).2 := by
  induction calls generalizing s with
  | nil => rfl
  | cons c calls ih => exact ih _

/-- The maps of a run are those that belong to the host's answers. -/
lemma compiledFor_of_mem_compilations {calls : List Call} {s : Session} {m : Compiled}
    (h : m ∈ compilations env reentry lookup calls s) :
    ∃ listing, compiledFor env lookup listing = some m := by
  induction calls generalizing s with
  | nil => cases h
  | cons c calls ih =>
    rw [compilations] at h
    rcases List.mem_append.1 h with h | h
    · exact ⟨c.listing, madeBy_compiledFor (Option.mem_toList.1 h)⟩
    · exact ih h

/-! ## Answers -/

lemma answer_serve (c : Call) (s : Session) :
    (serve env reentry lookup c s).1 =
      if admits c.key s.cache.entries then
        answerOf (courseOf env lookup c s.cache.entries).result
      else none :=
  (enforceFrom_serves (env.listing c.listing) ((env.listing c.listing).inlineFrom lookup) c.key
    reentry s).answer

/-- A call with some profiles and a key that is no catalog key is answered from the map that is
cached for the profiles, or else from the one that is compiled for them. -/
lemma result_courseOf {c : Call} {profiles : List Value}
    (hlist : c.listing.map Environment.profileList = .ok profiles) (hne : profiles ≠ [])
    (hkey : Compilation.isCatalogKey c.key = false) (entries : Table String Value) :
    answerOf (courseOf env lookup c entries).result =
      ((cachedFor? profiles entries).or
        ((compiledFor env lookup c.listing).map fun m => .mapping m.map)).elim none fun map =>
          answerOf (select c.key map) := by
  obtain ⟨p, ps, rfl⟩ := List.exists_cons_of_ne_nil hne
  unfold courseOf course compiledFor cachedMap? cachedFor?
  rw [Environment.activeProfiles_listing, hlist, hkey]
  simp only [Bool.false_eq_true, if_false]
  cases hmapKey : mapKey? (p :: ps) with
  | none =>
    -- Without a fingerprint there is no map to look for and none to make.
    rw [Compilation.compiled?_of_no_key hmapKey]
    rfl
  | some mapKey =>
    simp only [Option.bind_some]
    cases entries.get? mapKey with
    | some map => rfl
    | none =>
      simp only [Option.none_or]
      rw [(compileCourse_of_not_catalog _ _ _ hkey hmapKey).2]
      cases Compilation.compiled? (env.listing c.listing)
        ((env.listing c.listing).inlineFrom lookup) (p :: ps) <;> rfl

/-- Such a call makes a map if none is cached for the profiles. -/
lemma made_courseOf {c : Call} {profiles : List Value}
    (hlist : c.listing.map Environment.profileList = .ok profiles) (hne : profiles ≠ [])
    (hkey : Compilation.isCatalogKey c.key = false) (entries : Table String Value) :
    (courseOf env lookup c entries).made =
      if (cachedFor? profiles entries).isSome then none
      else compiledFor env lookup c.listing := by
  obtain ⟨p, ps, rfl⟩ := List.exists_cons_of_ne_nil hne
  unfold courseOf course compiledFor cachedMap? cachedFor?
  rw [Environment.activeProfiles_listing, hlist, hkey]
  simp only [Bool.false_eq_true, if_false]
  cases hmapKey : mapKey? (p :: ps) with
  | none => exact (Compilation.compiled?_of_no_key hmapKey).symm
  | some mapKey =>
    simp only [Option.bind_some]
    rcases Option.eq_none_or_eq_some (entries.get? mapKey) with hget | ⟨map, hget⟩
    · simpa [hget] using (compileCourse_of_not_catalog _ _ _ hkey hmapKey).1
    · simp [hget]

/-- A call for a catalog key, or without profiles, does not look into the cache. -/
lemma courseOf_eq_of_no_look {c : Call} (h : Compilation.isCatalogKey c.key = true ∨
    ∀ profiles, c.listing.map Environment.profileList = .ok profiles → profiles = [])
    (entries entries' : Table String Value) :
    courseOf env lookup c entries = courseOf env lookup c entries' := by
  unfold courseOf course
  rw [Environment.activeProfiles_listing]
  cases hlist : c.listing.map Environment.profileList with
  | error fault => rfl
  | ok profiles =>
    rcases h with hkey | hempty
    · simp only [cachedMap?, hkey, if_true]
    · obtain rfl := hempty profiles hlist
      rfl

end Session

/-! ## Calls as steps of a run -/

namespace Stage

/-- Setting the value under the enforcement key changes the host's answer there. -/
lemma environment_setValue (b : Backdrop) (st : Stage) (profiles : Value) :
    (step b st (.setValue (.text b.enforcementKey) profiles)).2.environment b =
      (st.environment b).listing (.ok (some profiles)) := by
  have hlookup : (fun key => Except.ok (ε := Fault)
      ((st.site.values.put (.text b.enforcementKey) profiles).get? (.text key))) =
      fun key => if key = b.enforcementKey then .ok (some profiles)
        else .ok (st.site.values.get? (.text key)) := by
    funext key
    rw [Table.get?_put, Scalar.text_beq_text]
    by_cases hkey : key = b.enforcementKey
    · rw [if_pos hkey, hkey, if_pos BEq.rfl]
    · rw [if_neg hkey, if_neg fun h => hkey (beq_iff_eq.1 h).symm]
  exact congrArg (fun f => { st.environment b with host := { st.site.toHost with lookup := f } })
    hlookup

/-- The profiles are set and a key is asked for: this is a call. -/
theorem step_enforce_eq_serve (b : Backdrop) (st : Stage) (profiles : Value) (key : String) :
    let served := Session.serve (st.environment b) b.reentry none ⟨.ok (some profiles), key⟩
      st.forget.session
    let set := (step b st (.setValue (.text b.enforcementKey) profiles)).2
    step b set (.enforce key) = set.after (.answer served.1) served.2 := by
  intro served set
  have hserved : Session.enforce (set.forget.environment b) b.reentry key set.forget.session =
      served := by
    have henv : set.forget.environment b = (st.environment b).listing (.ok (some profiles)) :=
      environment_setValue b st profiles
    unfold Session.enforce
    rw [henv]
    rfl
  unfold step perform
  rw [← hserved]
  rfl

end Stage

end ProfileCompiler
