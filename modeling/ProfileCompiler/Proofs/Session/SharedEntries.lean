import ProfileCompiler.Proofs.Session.Calls

/-!
# The entries of parameters

A compilation caches the value of every parameter under the parameter's own name, for others
who read the cache.  These entries belong to all lists of profiles together, while each list has
a map of its own, and only a compilation writes them.  So an entry is the value in the latest
map that has the parameter, and an answer is the value in the map of the list in force.  The
two are the same right after a compilation (`get?_of_made`), and need not be the same where the
list in force has gone back to one whose map was compiled before.
-/

namespace ProfileCompiler

/-! ## Maps of values -/

namespace Compilation

/-- The mode that selects values. -/
def valueMode : Value := .text "value"

lemma project_valueMode (a : Assignment) : a.project valueMode = .ok a.value := rfl

/-- In the mode that selects values a map holds the values of the parameters. -/
lemma parts_valueMode (assignments : Assignments) :
    parts valueMode assignments = .ok (assignments.map fun e => (.text e.1, e.2.value)) := by
  induction assignments with
  | nil => rfl
  | cons e rest ih =>
    obtain ⟨parameter, a⟩ := e
    unfold parts
    rw [project_valueMode, ih]
    rfl

lemma get?_texts (assignments : Assignments) (parameter : String) :
    Table.get? (Scalar.text parameter)
        (assignments.map fun e => (Scalar.text e.1, e.2.value)) =
      (assignments.get? parameter).map Assignment.value := by
  induction assignments with
  | nil => rfl
  | cons e rest ih =>
    rw [List.map_cons, Table.get?_cons, Table.get?_cons, ih, Scalar.text_beq_text]
    split <;> rfl

/-- The keys of a map that belong to the compilation itself. -/
def isOwnKey (key : String) : Bool := isCatalogKey key || key == dumpKey || key == secondsKey

end Compilation

namespace Session

variable {env : Environment} {reentry : Reentry} {lookup : Option InlineSource}

/-- Whatever a key is answered with from a mapping stands in the mapping. -/
lemma get?_of_select {key : String} {map : Entries} {v : Value} (hkey : key ≠ Compilation.dumpKey)
    (hselect : select key (.mapping map) = .ok (some v)) :
    Table.get? (Scalar.text key) map = some v := by
  unfold select at hselect
  rw [if_neg hkey] at hselect
  simp only [occurs] at hselect
  cases hout : Table.has (Scalar.text (knockoutMark ++ key)) map with
  | true =>
    rw [hout] at hselect
    cases hselect
  | false =>
    cases hin : Table.has (Scalar.text key) map with
    | true =>
      rw [hout, hin] at hselect
      exact Except.ok.inj hselect
    | false =>
      rw [hout, hin] at hselect
      cases hselect

/-- A value found in a compiled map is that of the parameter. -/
lemma value?_of_select (hmode : env.mode = Compilation.valueMode)
    {listing : Except Fault Answer} {m : Compiled} (hm : compiledFor env lookup listing = some m)
    {key : String} (hkey : Compilation.isOwnKey key = false) {v : Value}
    (hselect : select key (.mapping m.map) = .ok (some v)) : m.value? key = some v := by
  obtain ⟨hdump, hseconds⟩ : key ≠ Compilation.dumpKey ∧ key ≠ Compilation.secondsKey := by
    simp only [Compilation.isOwnKey, Bool.or_eq_false_iff, beq_eq_false_iff_ne] at hkey
    exact ⟨hkey.1.2, hkey.2⟩
  obtain ⟨-, -, -, selected, hparts, hmap⟩ := of_compiledFor hm
  rw [hmode, Compilation.parts_valueMode] at hparts
  have hput : (Scalar.text Compilation.secondsKey == Scalar.text key) = false := by
    rw [Scalar.text_beq_text]
    exact beq_eq_false_iff_ne.2 hseconds.symm
  have hget := get?_of_select hdump hselect
  rw [hmap, ← Except.ok.inj hparts, Compilation.withSeconds, Table.get?_put_of_ne hput,
    Compilation.get?_texts] at hget
  exact hget

/-! ## Calls that have an answer -/

lemma select_of_answerOf {key : String} {map v : Value}
    (h : answerOf (select key map) = some v) : select key map = .ok (some v) := by
  cases hselect : select key map with
  | error fault =>
    rw [hselect] at h
    cases h
  | ok answer =>
    rw [hselect] at h
    exact congrArg Except.ok h

/-- A call that has an answer was let in. -/
lemma admits_of_answer {c : Call} {s : Session} {v : Value}
    (hit : (serve env reentry lookup c s).1 = some v) :
    admits c.key s.cache.entries = true ∧
      answerOf (courseOf env lookup c s.cache.entries).result = some v := by
  rw [answer_serve] at hit
  split at hit
  · rename_i hadmits
    exact ⟨hadmits, hit⟩
  · cases hit

/-- A call that has an answer has profiles. -/
lemma profiles_of_answer {c : Call} {entries : Table String Value} {v : Value}
    (h : answerOf (courseOf env lookup c entries).result = some v) :
    ∃ profiles, c.listing.map Environment.profileList = .ok profiles ∧ profiles ≠ [] := by
  unfold courseOf course at h
  rw [Environment.activeProfiles_listing] at h
  cases hlist : c.listing.map Environment.profileList with
  | error fault =>
    rw [hlist] at h
    cases h
  | ok profiles =>
    cases profiles with
    | nil =>
      rw [hlist] at h
      cases h
    | cons p ps => exact ⟨p :: ps, rfl, List.cons_ne_nil p ps⟩

/-- The map from which a call was answered is cached after it. -/
lemma cached_of_answer {c : Call} {s : Session} {v : Value}
    (hit : (serve env reentry lookup c s).1 = some v)
    (hkey : Compilation.isCatalogKey c.key = false) :
    ∃ profiles mapKey map, c.listing.map Environment.profileList = .ok profiles ∧
      mapKey? profiles = some mapKey ∧
      (serve env reentry lookup c s).2.cache.entries.get? mapKey = some map ∧
      select c.key map = .ok (some v) := by
  obtain ⟨hadmits, hanswer⟩ := admits_of_answer hit
  obtain ⟨profiles, hlist, hne⟩ := profiles_of_answer hanswer
  have hmade : madeBy env lookup c s.cache.entries = _ :=
    (if_pos hadmits).trans (made_courseOf hlist hne hkey s.cache.entries)
  rw [result_courseOf hlist hne hkey] at hanswer
  -- Such a call answers from a map that was cached before it, or from the one it has compiled.
  cases hcached : cachedFor? profiles s.cache.entries with
  | some map =>
    rw [hcached] at hanswer hmade
    obtain ⟨mapKey, hmapKey, hget⟩ := Option.bind_eq_some_iff.1 hcached
    refine ⟨profiles, mapKey, map, hlist, hmapKey, ?_, select_of_answerOf hanswer⟩
    rw [get?_serve c s (mapKey_ne_lockKey hmapKey), hmade, hget]
    rfl
  | none =>
    rw [hcached] at hanswer hmade
    cases hm : compiledFor env lookup c.listing with
    | none =>
      rw [hm] at hanswer
      cases hanswer
    | some m =>
      rw [hm] at hanswer hmade
      obtain ⟨⟨hmlist, -⟩, hmkey, -⟩ := of_compiledFor hm
      obtain rfl : profiles = m.profiles := Except.ok.inj (hlist.symm.trans hmlist)
      refine ⟨_, m.cacheKey, .mapping m.map, hlist, hmkey, ?_, select_of_answerOf hanswer⟩
      rw [get?_serve c s (mapKey_ne_lockKey hmkey), hmade]
      simp [Compiled.left]

/-! ## Entries of parameters -/

/-- A call that is let in leaves the lock released. -/
lemma get?_lockKey_of_answer {c : Call} {s : Session} {v : Value}
    (hit : (serve env reentry lookup c s).1 = some v) :
    (serve env reentry lookup c s).2.cache.entries.get? lockKey = some (.bool false) := by
  rw [entries_serve, if_pos (admits_of_answer hit).1, Table.get?_put_self]

/-- Right after a compilation the entry of a parameter is what is answered. -/
theorem get?_of_made (hmode : env.mode = Compilation.valueMode) {c : Call} {s : Session}
    {m : Compiled} {v : Value} (hmade : madeBy env lookup c s.cache.entries = some m)
    (hit : (serve env reentry lookup c s).1 = some v)
    (hown : Compilation.isOwnKey c.key = false) (hlock : c.key ≠ lockKey)
    (hmap : c.key ≠ m.cacheKey) :
    (serve env reentry lookup c s).2.cache.entries.get? c.key = some v := by
  obtain ⟨hadmits, hanswer⟩ := admits_of_answer hit
  have hcourse : (courseOf env lookup c s.cache.entries).made = some m :=
    (if_pos hadmits).symm.trans hmade
  have hresult : (courseOf env lookup c s.cache.entries).result = select c.key (.mapping m.map) :=
    result_of_made hcourse
  rw [hresult] at hanswer
  have hvalue : m.value? c.key = some v :=
    value?_of_select hmode (compiledFor_of_made hcourse) hown (select_of_answerOf hanswer)
  rw [get?_serve c s hlock, hmade, Option.bind_some, Compiled.left, if_neg hmap.symm, hvalue]
  rfl

/-- After a run of calls that ends with an answer, the entry under its key is this answer
exactly if the latest map that left anything under the key left this there; only under the key
of the lock stands what releases it.  The answer itself is the value of the parameter in the
map that is cached for the profiles of the call, whenever that map was compiled. -/
theorem get?_eq_answer_iff (hmode : env.mode = Compilation.valueMode) (calls : List Call)
    (c : Call) {s : Session} (hempty : s.cache.entries = []) {v : Value}
    (hit : (serve env reentry lookup c (serveAll env reentry lookup calls s).2).1 = some v) :
    ((serveAll env reentry lookup (calls ++ [c]) s).2.cache.entries.get? c.key = some v ↔
      if c.key = lockKey then v = .bool false
      else latest (compilations env reentry lookup (calls ++ [c]) s) c.key = some v) ∧
    (Compilation.isOwnKey c.key = false →
      ∃ profiles mapKey map, c.listing.map Environment.profileList = .ok profiles ∧
        mapKey? profiles = some mapKey ∧
        (serveAll env reentry lookup (calls ++ [c]) s).2.cache.entries.get? mapKey = some map ∧
        ∀ m ∈ compilations env reentry lookup (calls ++ [c]) s, map = .mapping m.map →
          m.value? c.key = some v) := by
  have hlast : (serveAll env reentry lookup (calls ++ [c]) s).2 =
      (serve env reentry lookup c (serveAll env reentry lookup calls s).2).2 := by
    rw [serveAll_append]
    rfl
  constructor
  · split
    · rename_i hlock
      rw [hlast, hlock, get?_lockKey_of_answer hit, Option.some.injEq, eq_comm]
    · rename_i hlock
      rw [get?_serveAll (calls ++ [c]) s hlock, hempty, Table.get?_nil, Option.or_none]
  · intro hown
    have hkey : Compilation.isCatalogKey c.key = false := by
      simp only [Compilation.isOwnKey, Bool.or_eq_false_iff] at hown
      exact hown.1.1
    obtain ⟨profiles, mapKey, map, hlist, hmapKey, hcached, hselect⟩ := cached_of_answer hit hkey
    refine ⟨profiles, mapKey, map, hlist, hmapKey, ?_, ?_⟩
    · rw [hlast, hcached]
    · rintro m hm rfl
      obtain ⟨listing, hcompiled⟩ := compiledFor_of_mem_compilations hm
      exact value?_of_select hmode hcompiled hown hselect

/-- Surroundings in which two profiles give a parameter different values. -/
def contrary : Environment :=
  .ofProfiles [("a", [("x", .text "one")]), ("b", [("x", .text "two")])]

/-- The call for this parameter with one of the profiles. -/
def callForX (profile : String) : Call := ⟨.ok (some (.text profile)), "x"⟩

/-- Going back to the first profile, whose map is cached, the answer is its value, and the entry
is still the value of the other. -/
theorem get?_eq_answer_iff_contrary :
    contrary.mode = Compilation.valueMode ∧ fresh.cache.entries = [] ∧
      ∃ v, v.text? = some "one" ∧
        (serve contrary .never none (callForX "a")
          (serveAll contrary .never none [callForX "a", callForX "b"] fresh).2).1 = some v ∧
        (serveAll contrary .never none ([callForX "a", callForX "b"] ++ [callForX "a"])
          fresh).2.cache.entries.get? "x" ≠ some v := by
  have hone : (serve contrary .never none (callForX "a")
      (serveAll contrary .never none [callForX "a", callForX "b"] fresh).2).1.bind Value.text? =
        some "one" := by decide +kernel
  have htwo : (latest (compilations contrary .never none
      ([callForX "a", callForX "b"] ++ [callForX "a"]) fresh) "x").bind Value.text? =
        some "two" := by decide +kernel
  obtain ⟨v, hit, htext⟩ := Option.bind_eq_some_iff.1 hone
  refine ⟨rfl, rfl, v, htext, hit, fun hentry => ?_⟩
  have hlatest := (get?_eq_answer_iff rfl _ _ rfl hit).1.1 hentry
  rw [if_neg (by decide)] at hlatest
  rw [show (callForX "a").key = "x" from rfl] at hlatest
  rw [hlatest, Option.bind_some, htext] at htwo
  exact absurd htwo (by decide)

end Session

end ProfileCompiler
