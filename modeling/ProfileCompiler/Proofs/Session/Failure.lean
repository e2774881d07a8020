import ProfileCompiler.Proofs.Session.Course
import ProfileCompiler.Proofs.Session.Listing

/-!
# Calls that fail

A fault anywhere in a call is no answer, and nothing but the lock shows in the cache that the
call was made.  The reason is in the course of a call.  A course that ends in a fault has made
no map (`writes_of_fault`), for a map can always be searched; and values of parameters are
stored only together with a map.
-/

namespace ProfileCompiler

namespace Session

/-- A call that ends in a fault stores nothing besides the lock. -/
lemma writes_of_fault {env : Environment} {inline : InlineSource} {key : String}
    {entries : Table String Value} {fault : Fault}
    (h : (course env inline key entries).result = .error fault) :
    (course env inline key entries).writes = [] := by
  cases hmade : (course env inline key entries).made with
  | none => rw [Course.writes, hmade]
  | some m =>
    obtain ⟨answer, hanswer⟩ := select_mapping key m.map
    rw [result_of_made hmade, hanswer] at h
    cases h

/-- Taking and releasing the lock changes no other entry. -/
lemma others_put_lock (entries : Table String Value) (v w : Value) :
    ((entries.put lockKey v).put lockKey w).filter (fun e => e.1 != lockKey) =
      entries.filter (fun e => e.1 != lockKey) := by
  rw [Table.put_put, Table.filter_put]

/-- A call under a free lock always comes to an answer and leaves the lock released, whatever
the host answers, the documents say and the mode is.  If it ends in a fault there is no
answer, and the other entries of the cache are the same ones in the same order: no compiled
map and no parameter has been stored.  A reserved key changes nothing at all. -/
theorem enforceFrom_of_fault (env : Environment) (reentry : Reentry) (inline : InlineSource)
    (key : String) (s : Session) (free : lockHeld s.cache.entries = false) :
    (isReserved key = true → enforceFrom env reentry inline key s = (none, s)) ∧
    (isReserved key = false →
      (enforceFrom env reentry inline key s).2.cache.entries.get? lockKey =
          some (.bool false) ∧
      (∀ answer, (attempt env reentry inline key s).1 = .ok answer →
        (enforceFrom env reentry inline key s).1 = answer) ∧
      ∀ fault, (attempt env reentry inline key s).1 = .error fault →
        (enforceFrom env reentry inline key s).1 = none ∧
        (enforceFrom env reentry inline key s).2.cache.others lockKey =
          s.cache.others lockKey) := by
  constructor
  · intro hreserved
    rw [enforceFrom, callDepth, enforceWithin_eq, hreserved, Bool.true_or, if_pos rfl, turnedAway,
      if_pos hreserved]
  · intro hreserved
    have hadmits : admits key s.cache.entries = true := by rw [admits, hreserved, free]; rfl
    obtain ⟨hanswer, hentries, -, -⟩ := enforceFrom_serves env inline key reentry s
    have hresult := (attempt_follows env inline key reentry s).result
    rw [reply, if_pos hadmits, ← hresult] at hanswer
    rw [deposits, if_pos hadmits, Table.putAll_cons, Table.putAll_append, Table.putAll_cons,
      Table.putAll_nil] at hentries
    refine ⟨?_, ?_, ?_⟩
    · rw [hentries, Table.get?_put_self]
    · intro answer hok
      rw [hanswer, hok]
      rfl
    · intro fault hfault
      rw [hresult] at hfault
      refine ⟨by rw [hanswer, hresult, hfault]; rfl, ?_⟩
      rw [writes_of_fault hfault, Table.putAll_nil] at hentries
      unfold Cache.others
      rw [hentries, others_put_lock]

/-- Surroundings in which the active profile gives a parameter two values that cannot be merged. -/
def unmergeable : Environment :=
  (Environment.ofProfiles
    [("a", [("x", .list [.int 1]), ("x", .ofTexts [("y", .int 1)])])]).listing
      (.ok (some (.text "a")))

/-- A call that fails in merging, on a session with one entry. -/
theorem enforceFrom_of_fault_unmergeable :
    let s := fresh.store "kept" (.int 1)
    lockHeld s.cache.entries = false ∧ isReserved "x" = false ∧
      (attempt unmergeable .never unmergeable.hostInline "x" s).1 =
        .error (.unmergeable "x" "value" true) ∧
      (enforceFrom unmergeable .never unmergeable.hostInline "x" s).1 = none ∧
      (enforceFrom unmergeable .never unmergeable.hostInline "x" s).2.cache.others lockKey =
        [("kept", .int 1)] := by
  intro s
  have hfree : lockHeld s.cache.entries = false := by decide
  have hreserved : isReserved "x" = false := by decide
  have hfault : (attempt unmergeable .never unmergeable.hostInline "x" s).1 =
      .error (.unmergeable "x" "value" true) := by
    have hsome : (match (attempt unmergeable .never unmergeable.hostInline "x" s).1 with
        | .error fault => some fault
        | .ok _ => none) = some (.unmergeable "x" "value" true) := by decide +kernel
    split at hsome
    · rename_i fault heq
      rw [heq, Option.some.inj hsome]
    · cases hsome
  obtain ⟨hnone, hothers⟩ := ((enforceFrom_of_fault unmergeable .never unmergeable.hostInline "x" s
    hfree).2 hreserved).2.2 _ hfault
  exact ⟨hfree, hreserved, hfault, hnone, hothers⟩

end Session

end ProfileCompiler
