import ProfileCompiler.Proofs.Fingerprint
import ProfileCompiler.Proofs.Session.Calls

/-!
# Whose map is found

A call looks for a map under the key that the fingerprint of its profiles makes.  What it finds
there was left by the latest compilation that left anything there (`Session.exists_of_latest`).
If both lists are lists of texts, this was a compilation for the same list, unless the SHA-256
digests of two different messages start alike, or what is found is no map but the value of a
parameter that is named like the key (`Session.texts_told_apart`).
-/

namespace ProfileCompiler

namespace Session

open Value (texts)
open Json (row)
open Fingerprint (source? message Collide)

variable {env : Environment} {reentry : Reentry} {lookup : Option InlineSource}

/-- What stands last under a key was left there by a map after which none left anything there. -/
lemma exists_of_latest {made : List Compiled} {key : String} {v : Value}
    (h : latest made key = some v) :
    ∃ before m after, made = before ++ m :: after ∧ m.left key = some v ∧
      ∀ m' ∈ after, m'.left key = none := by
  obtain ⟨later, m, earlier, hmade, hleft, hlater⟩ := List.findSome?_eq_some_iff.1 h
  refine ⟨earlier.reverse, m, later.reverse, ?_, hleft, fun m' hm' => ?_⟩
  · rw [← List.reverse_reverse made, hmade]
    simp
  · exact hlater m' (List.mem_reverse.1 hm')

/-- The map of a list of texts has a cache key. -/
lemma mapKey?_texts (ps : List String) :
    mapKey? (texts ps) = some (mapKeyStart ++ Fingerprint.ofSource (row ps)) := by
  rw [mapKey?, Fingerprint.ofList?_texts]
  rfl

/-- Maps of lists of texts are cached under one key if the lists are one or their messages
collide. -/
lemma mapKey?_texts_eq_iff {p q : List String} :
    mapKey? (texts p) = mapKey? (texts q) ↔
      p = q ∨ Collide (message (row p)) (message (row q)) := by
  rw [mapKey?_texts, mapKey?_texts, Option.some.injEq, append_mapKeyStart_inj,
    Fingerprint.ofSource_row_eq_iff]

/-- The maps of a run are cached under the keys of their profiles. -/
lemma mapKey?_of_mem_compilations {calls : List Call} {s : Session} {m : Compiled}
    (h : m ∈ compilations env reentry lookup calls s) : mapKey? m.profiles = some m.cacheKey := by
  obtain ⟨listing, hm⟩ := compiledFor_of_mem_compilations h
  exact (of_compiledFor hm).2.1

/-- Lists of texts are told apart by the texts that are digested for them, and so by the keys of
their maps unless the messages collide.  What stands under such a key after a run was left there
by the latest compilation that left anything there; if this one was for another list without a
collision, it left the value of a parameter and not its map. -/
theorem texts_told_apart {s : Session} (hempty : s.cache.entries = []) (calls : List Call)
    (p q : List String) :
    ∃ source source' mapKey,
      source? (texts p) = some source ∧ source? (texts q) = some source' ∧
      (source = source' ↔ p = q) ∧
      mapKey? (texts q) = some mapKey ∧
      (mapKey? (texts p) = some mapKey ↔ p = q ∨ Collide (message source) (message source')) ∧
      ∀ v, (serveAll env reentry lookup calls s).2.cache.entries.get? mapKey = some v →
        ∃ before m after, compilations env reentry lookup calls s = before ++ m :: after ∧
          m.left mapKey = some v ∧ (∀ m' ∈ after, m'.left mapKey = none) ∧
          (m.profiles = texts p → p = q ∨ Collide (message source) (message source') ∨
            m.value? mapKey = some v) := by
  have hkey := mapKey?_texts q
  generalize mapKeyStart ++ Fingerprint.ofSource (row q) = mapKey at hkey
  refine ⟨row p, row q, mapKey, Fingerprint.source?_texts p, Fingerprint.source?_texts q,
    Fingerprint.row_inj, hkey, ?_, fun v hv => ?_⟩
  · rw [← hkey, mapKey?_texts_eq_iff]
  have hlatest : latest (compilations env reentry lookup calls s) mapKey = some v := by
    rw [get?_serveAll calls s (mapKey_ne_lockKey hkey), hempty, Table.get?_nil,
      Option.or_none] at hv
    exact hv
  obtain ⟨before, m, after, hmade, hleft, hafter⟩ := exists_of_latest hlatest
  refine ⟨before, m, after, hmade, hleft, hafter, fun hprofiles => ?_⟩
  have hmkey : mapKey? m.profiles = some m.cacheKey :=
    mapKey?_of_mem_compilations (hmade ▸ List.mem_append_right _ List.mem_cons_self)
  unfold Compiled.left at hleft
  split at hleft
  · rename_i hsame
    rw [hprofiles, hsame, ← hkey, mapKey?_texts_eq_iff] at hmkey
    rcases hmkey with heq | hcollide
    · exact Or.inl heq
    · exact Or.inr (Or.inl hcollide)
  · exact Or.inr (Or.inr hleft)

/-- Surroundings in which the name of one profile looks like the names of two others in a list. -/
def lookalikes : Environment :=
  .ofProfiles [("a\", \"b", [("x", .text "one")]), ("a", [("x", .text "two")]), ("b", [])]

/-- The call for the parameter with some profiles. -/
def callForXWith (profiles : List String) : Call := ⟨.ok (some (.list (texts profiles))), "x"⟩

/-- The one profile and the two others are told apart. -/
theorem texts_told_apart_lookalikes :
    let calls := [callForXWith ["a\", \"b"], callForXWith ["a", "b"]]
    fresh.cache.entries = [] ∧
      (serveAll lookalikes .never none calls fresh).1.map (·.bind Value.text?) =
        [some "one", some "two"] ∧
      ∃ source source' mapKey v,
        source? (texts ["a\", \"b"]) = some source ∧ source? (texts ["a", "b"]) = some source' ∧
        source ≠ source' ∧ mapKey? (texts ["a", "b"]) = some mapKey ∧
        ∃ m ∈ compilations lookalikes .never none calls fresh,
          m.left mapKey = some v ∧
          (m.profiles = texts ["a\", \"b"] →
            Collide (message source) (message source') ∨ m.value? mapKey = some v) := by
  intro calls
  have hne : ["a\", \"b"] ≠ ["a", "b"] := by decide
  have hanswers : (serveAll lookalikes .never none calls fresh).1.map (·.bind Value.text?) =
      [some "one", some "two"] := by decide +kernel
  have hcached : (cachedFor? (texts ["a", "b"])
      (serveAll lookalikes .never none calls fresh).2.cache.entries).isSome = true := by
    decide +kernel
  obtain ⟨v, hv⟩ := Option.isSome_iff_exists.1 hcached
  obtain ⟨source, source', mapKey, hsource, hsource', hiff, hkey, -, hrun⟩ :=
    @texts_told_apart lookalikes .never none fresh rfl calls ["a\", \"b"] ["a", "b"]
  rw [cachedFor?, hkey, Option.bind_some] at hv
  obtain ⟨before, m, after, hmade, hleft, -, hother⟩ := hrun v hv
  refine ⟨rfl, hanswers, source, source', mapKey, v, hsource, hsource', fun h => hne (hiff.1 h),
    hkey, m, ?_, hleft, fun hprofiles => ?_⟩
  · rw [hmade]
    simp
  · exact (hother hprofiles).resolve_left hne

end Session

end ProfileCompiler
