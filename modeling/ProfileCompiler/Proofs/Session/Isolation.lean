import ProfileCompiler.Proofs.Session.Calls

/-!
# Whether lists of profiles are isolated

The maps of all lists of profiles are cached in one session, and a run of calls goes from list
to list.  The lists are isolated (`Session.Isolated`) if every call is answered as on a fresh
session.

A map cannot be mistaken for another as long as fingerprints tell the lists apart.  But the
values of parameters are cached under the names of the parameters, among the maps, and a
parameter may be named like the cache key of a map.  Its value then stands where the map is
looked for.  This is the only way in which isolation is lost (`passes_of_isolated`,
`isolated_of_passes`); where no parameter is named so, lists are isolated
(`isolated_of_no_map_names`).
-/

namespace ProfileCompiler

namespace Session

variable (env : Environment) (reentry : Reentry) (lookup : Option InlineSource)

/-- The lists of profiles that answers under the enforcement key give. -/
def lists (listings : Set (Except Fault Answer)) : Set (List Value) :=
  { profiles | ∃ a ∈ listings, a.map Environment.profileList = .ok profiles }

/-- No two lists that have fingerprints have the same one. -/
def ToldApart (lists : Set (List Value)) : Prop :=
  ∀ P ∈ lists, ∀ P' ∈ lists, ∀ fingerprint, Fingerprint.ofList? P = some fingerprint →
    Fingerprint.ofList? P' = some fingerprint → P = P'

/-- Every run of calls, on any session with an empty cache, has the answers that the calls have
on fresh sessions. -/
def Isolated (listings : Set (Except Fault Answer)) : Prop :=
  ∀ calls : List Call, (∀ c ∈ calls, c.listing ∈ listings) →
    ∀ s : Session, s.cache.entries = [] →
      (serveAll env reentry lookup calls s).1 =
        calls.map fun c => (serve env reentry lookup c fresh).1

/-- A value that answers every key that is looked up in a map as it is answered on a fresh
session. -/
def Passes (listing : Except Fault Answer) (v : Value) : Prop :=
  ∀ key, isReserved key = false → Compilation.isCatalogKey key = false →
    answerOf (select key v) = (serve env reentry lookup ⟨listing, key⟩ fresh).1

/-- Where a compiled map has a parameter that is named like the cache key of another list's
map, the value of the parameter passes for that map. -/
def ImpostorsPass (listings : Set (Except Fault Answer)) : Prop :=
  ∀ a ∈ listings, ∀ m, compiledFor env lookup a = some m →
    ∀ a' ∈ listings, ∀ profiles, a'.map Environment.profileList = .ok profiles →
      profiles ≠ [] → profiles ≠ m.profiles → ∀ mapKey, mapKey? profiles = some mapKey →
        ∀ v, m.value? mapKey = some v → Passes env reentry lookup a' v

/-- Entries in which every value under the cache key of a map passes for that map. -/
structure Sound (listings : Set (Except Fault Answer)) (entries : Table String Value) :
    Prop where
  free : lockHeld entries = false
  passes : ∀ a ∈ listings, ∀ profiles, a.map Environment.profileList = .ok profiles →
    profiles ≠ [] → ∀ v, cachedFor? profiles entries = some v →
      Passes env reentry lookup a v

variable {env reentry lookup} {listings : Set (Except Fault Answer)}

/-- Lists that are told apart have different cache keys. -/
lemma ToldApart.eq_of_mapKey? {lists : Set (List Value)} (h : ToldApart lists) {P P' : List Value}
    (hP : P ∈ lists) (hP' : P' ∈ lists) {mapKey : String} (hkey : mapKey? P = some mapKey)
    (hkey' : mapKey? P' = some mapKey) : P = P' := by
  obtain ⟨fingerprint, hone, hstart⟩ := mapKey?_eq_some_iff.1 hkey
  obtain ⟨fingerprint', hother, hstart'⟩ := mapKey?_eq_some_iff.1 hkey'
  obtain rfl := append_mapKeyStart_inj.1 (hstart.trans hstart'.symm)
  exact h P hP P' hP' fingerprint hone hother

/-! ## Fresh sessions -/

lemma admits_of_free {key : String} {entries : Table String Value}
    (free : lockHeld entries = false) : admits key entries = !isReserved key := by
  rw [admits, free, Bool.or_false]

/-- On a fresh session a key is answered from the map that is compiled. -/
lemma answer_fresh {c : Call} {profiles : List Value}
    (hlist : c.listing.map Environment.profileList = .ok profiles) (hne : profiles ≠ [])
    (hreserved : isReserved c.key = false) (hkey : Compilation.isCatalogKey c.key = false) :
    (serve env reentry lookup c fresh).1 =
      (compiledFor env lookup c.listing).elim none fun m =>
        answerOf (select c.key (.mapping m.map)) := by
  have hadmits : admits c.key fresh.cache.entries = true := by
    rw [admits_of_free lockHeld_fresh, hreserved]
    rfl
  have hnone : cachedFor? profiles fresh.cache.entries = none := by
    unfold cachedFor?
    cases mapKey? profiles <;> rfl
  rw [answer_serve, if_pos hadmits, result_courseOf hlist hne hkey, hnone, Option.none_or]
  cases compiledFor env lookup c.listing <;> rfl

/-- A compiled map passes for itself, however its profiles are listed. -/
lemma passes_map {a a' : Except Fault Answer} {m : Compiled}
    (hm : compiledFor env lookup a = some m)
    (ha' : a'.map Environment.profileList = .ok m.profiles) :
    Passes env reentry lookup a' (.mapping m.map) := by
  obtain ⟨⟨ha, hne⟩, -⟩ := of_compiledFor hm
  intro key hreserved hkey
  rw [answer_fresh (c := ⟨a', key⟩) ha' hne hreserved hkey, compiledFor_congr ha' ha, hm]
  rfl

/-! ## Where values pass, lists are isolated -/

/-- On sound entries a call is answered as on a fresh session. -/
lemma Sound.answer {s : Session} (h : Sound env reentry lookup listings s.cache.entries)
    {c : Call} (hc : c.listing ∈ listings) :
    (serve env reentry lookup c s).1 = (serve env reentry lookup c fresh).1 := by
  cases hreserved : isReserved c.key with
  | true =>
    rw [answer_serve, answer_serve, admits_of_free h.free, admits_of_free lockHeld_fresh, hreserved]
    rfl
  | false =>
    have hadmits : ∀ t : Session, lockHeld t.cache.entries = false →
        (serve env reentry lookup c t).1 =
          answerOf (courseOf env lookup c t.cache.entries).result := by
      intro t ht
      rw [answer_serve, admits_of_free ht, hreserved]
      rfl
    -- Only a call that looks for a cached map can tell the entries apart.
    by_cases hlook : Compilation.isCatalogKey c.key = true ∨
        ∀ profiles, c.listing.map Environment.profileList = .ok profiles → profiles = []
    · rw [hadmits s h.free, hadmits fresh lockHeld_fresh,
        courseOf_eq_of_no_look hlook s.cache.entries fresh.cache.entries]
    · simp only [not_or, Bool.not_eq_true, not_forall] at hlook
      obtain ⟨hkey, profiles, hlist, hne⟩ := hlook
      cases hcached : cachedFor? profiles s.cache.entries with
      | some v =>
        rw [hadmits s h.free, result_courseOf hlist hne hkey, hcached]
        exact h.passes c.listing hc profiles hlist hne v hcached c.key hreserved hkey
      | none =>
        rw [hadmits s h.free, result_courseOf hlist hne hkey, hcached,
          answer_fresh hlist hne hreserved hkey, Option.none_or]
        cases compiledFor env lookup c.listing <;> rfl

/-- A call leaves sound entries sound. -/
lemma Sound.serve {s : Session} (h : Sound env reentry lookup listings s.cache.entries)
    (happart : ToldApart (lists listings))
    (hpass : ImpostorsPass env reentry lookup listings) {c : Call} (hc : c.listing ∈ listings) :
    Sound env reentry lookup listings
      (Session.serve env reentry lookup c s).2.cache.entries where
  free := lockHeld_serve c h.free
  passes := by
    intro a ha profiles hlist hne v hv
    obtain ⟨mapKey, hmapKey, hv⟩ := Option.bind_eq_some_iff.1 hv
    have hbefore : s.cache.entries.get? mapKey = some v → Passes env reentry lookup a v :=
      fun hget => h.passes a ha profiles hlist hne v (Option.bind_eq_some_iff.2 ⟨_, hmapKey, hget⟩)
    rw [get?_serve c s (mapKey_ne_lockKey hmapKey)] at hv
    -- What stands there was there before the call, or the map that the call made has left it.
    cases hmade : madeBy env lookup c s.cache.entries with
    | none =>
      rw [hmade, Option.bind_none, Option.none_or] at hv
      exact hbefore hv
    | some m =>
      rw [hmade, Option.bind_some] at hv
      have hm := madeBy_compiledFor hmade
      obtain ⟨⟨hmlist, -⟩, hmkey, -⟩ := of_compiledFor hm
      cases hleft : m.left mapKey with
      | none =>
        rw [hleft, Option.none_or] at hv
        exact hbefore hv
      | some w =>
        rw [hleft, Option.some_or] at hv
        obtain rfl : w = v := Option.some.inj hv
        unfold Compiled.left at hleft
        split at hleft
        · -- The map of these very profiles has been compiled.
          rename_i hsame
          obtain rfl : m.profiles = profiles :=
            happart.eq_of_mapKey? ⟨_, hc, hmlist⟩ ⟨_, ha, hlist⟩ (hsame ▸ hmkey) hmapKey
          obtain rfl := Option.some.inj hleft
          exact passes_map hm hlist
        · -- A parameter is named like the cache key of their map.
          rename_i hother
          refine hpass c.listing hc m hm a ha profiles hlist hne ?_ mapKey hmapKey w hleft
          rintro rfl
          exact hother (Option.some.inj (hmkey.symm.trans hmapKey))

theorem isolated_of_passes (happart : ToldApart (lists listings))
    (hpass : ImpostorsPass env reentry lookup listings) :
    Isolated env reentry lookup listings := by
  intro calls hcalls s hempty
  have hsound : Sound env reentry lookup listings s.cache.entries := by
    rw [hempty]
    refine ⟨rfl, fun a _ profiles _ _ v hv => ?_⟩
    obtain ⟨mapKey, -, hget⟩ := Option.bind_eq_some_iff.1 hv
    cases hget
  clear hempty
  induction calls generalizing s with
  | nil => rfl
  | cons c calls ih =>
    obtain ⟨hc, hrest⟩ := List.forall_mem_cons.1 hcalls
    rw [List.map_cons, ← hsound.answer hc, ← ih hrest _ (hsound.serve happart hpass hc)]
    rfl

/-! ## Where lists are isolated, values pass -/

theorem passes_of_isolated (happart : ToldApart (lists listings))
    (h : Isolated env reentry lookup listings) : ImpostorsPass env reentry lookup listings := by
  intro a ha m hm a' ha' profiles hlist hne hother mapKey hmapKey v hv key hreserved hkey
  obtain ⟨⟨hmlist, hmne⟩, hmkey, -⟩ := of_compiledFor hm
  -- The map with the impostor is compiled, and then the other list is asked for the key.
  have hrun := h [⟨a, Compilation.dumpKey⟩, ⟨a', key⟩] (by simp [ha, ha']) fresh rfl
  simp only [serveAll, List.map_cons, List.map_nil, List.cons.injEq, true_and, and_true] at hrun
  rw [← hrun]
  have hmade : madeBy env lookup ⟨a, Compilation.dumpKey⟩ fresh.cache.entries = some m := by
    have hadmits : admits Compilation.dumpKey fresh.cache.entries = true := by decide
    have hkey : Compilation.isCatalogKey Compilation.dumpKey = false := by decide
    rw [madeBy, if_pos hadmits, ← hm, made_courseOf hmlist hmne hkey, cachedFor?, hmkey]
    rfl
  have hkeys : m.cacheKey ≠ mapKey := fun hsame =>
    hother (happart.eq_of_mapKey? ⟨_, ha, hmlist⟩ ⟨_, ha', hlist⟩ (hsame ▸ hmkey) hmapKey).symm
  have hcached : cachedFor? profiles
      (serve env reentry lookup ⟨a, Compilation.dumpKey⟩ fresh).2.cache.entries = some v := by
    rw [cachedFor?, hmapKey, Option.bind_some, get?_serve _ _ (mapKey_ne_lockKey hmapKey), hmade,
      Option.bind_some, Compiled.left, if_neg hkeys, hv]
    rfl
  have hfree : lockHeld
      (serve env reentry lookup ⟨a, Compilation.dumpKey⟩ fresh).2.cache.entries = false :=
    lockHeld_serve _ lockHeld_fresh
  rw [answer_serve, admits_of_free hfree, hreserved, Bool.not_false, if_pos rfl,
    result_courseOf (c := ⟨a', key⟩) hlist hne hkey, hcached]
  rfl

/-! ## Isolation -/

/-- Where no parameter is named like the cache key of a map, lists are isolated. -/
theorem isolated_of_no_map_names (happart : ToldApart (lists listings))
    (hnames : ∀ a ∈ listings, ∀ m, compiledFor env lookup a = some m →
      ∀ profiles ∈ lists listings, ∀ mapKey, mapKey? profiles = some mapKey →
        m.value? mapKey = none) :
    Isolated env reentry lookup listings := by
  refine isolated_of_passes happart ?_
  intro a ha m hm a' ha' profiles hlist hne hother mapKey hmapKey v hv
  rw [hnames a ha m hm profiles ⟨a', ha', hlist⟩ mapKey hmapKey] at hv
  cases hv

/-- Lists of profiles that are told apart by their fingerprints are isolated exactly if every
parameter that is named like the cache key of another list's map has a value that passes for
that map. -/
theorem isolated_iff (happart : ToldApart (lists listings)) :
    Isolated env reentry lookup listings ↔ ImpostorsPass env reentry lookup listings :=
  ⟨passes_of_isolated happart, isolated_of_passes happart⟩

/-- The cache key of the map of profile `b`. -/
def mapKeyOfB : String := "compliance_map_a8950f05d3443e79"

/-- Surroundings in which profile `a` has a parameter named like the cache key of the map of
profile `b`. -/
def impostor : Environment :=
  .ofProfiles [("a", [(mapKeyOfB, .text "")]), ("b", [("x", .int 1)])]

/-- The answers that name profile `a` or profile `b`. -/
def eitherProfile : Set (Except Fault Answer) :=
  { a | a = .ok (some (.text "a")) ∨ a = .ok (some (.text "b")) }

/-- The impostor does not pass: after a call with profile `a`, profile `b` has lost its
parameter. -/
theorem isolated_iff_impostor :
    ToldApart (lists eitherProfile) ∧ ¬ Isolated impostor .never none eitherProfile := by
  have hne : Fingerprint.ofList? [.text "a"] ≠ Fingerprint.ofList? [.text "b"] := by
    decide +kernel
  have happart : ToldApart (lists eitherProfile) := by
    rintro P ⟨a, rfl | rfl, hP⟩ P' ⟨a', rfl | rfl, hP'⟩ fingerprint hone hother <;>
      cases hP <;> cases hP'
    · rfl
    · exact absurd (hone.trans hother.symm) hne
    · exact absurd (hother.trans hone.symm) hne
    · rfl
  refine ⟨happart, fun h => ?_⟩
  have hpass := (isolated_iff happart).1 h
  have hmapKey : mapKey? [.text "b"] = some mapKeyOfB := by decide +kernel
  have hlost : ((compiledFor impostor none (.ok (some (.text "a")))).any fun m =>
      (m.value? mapKeyOfB).any fun v => (answerOf (select "x" v)).isNone) = true := by
    decide +kernel
  have hfound : (serve impostor .never none ⟨.ok (some (.text "b")), "x"⟩ fresh).1.isNone =
      false := by decide +kernel
  obtain ⟨m, hm, hlost⟩ := (Option.any_eq_true _ _).1 hlost
  obtain ⟨v, hv, hlost⟩ := (Option.any_eq_true _ _).1 hlost
  have hother : [.text "b"] ≠ m.profiles := by
    intro hsame
    obtain ⟨⟨hlist, -⟩, -⟩ := of_compiledFor hm
    rw [← hsame] at hlist
    exact hne (congrArg Fingerprint.ofList? (Except.ok.inj hlist))
  have hanswer := hpass _ (Or.inl rfl) m hm _ (Or.inr rfl) [.text "b"] rfl (by simp) hother
    mapKeyOfB hmapKey v hv "x" (by decide) (by decide)
  rw [← hanswer, hlost] at hfound
  cases hfound

end Session

end ProfileCompiler
