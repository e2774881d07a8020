import ProfileCompiler.Proofs.Confinement.Verdict
import ProfileCompiler.Proofs.Outcome

/-!
# The conditions of a confinement

A confinement is judged condition by condition.  What a condition comes to does not depend on the
ones before it (`verdict`), so a row of conditions is judged like its parts in turn
(`alone_allHold_append`): it holds if every condition does (`alone_allHold_eq_true_iff`), and it
ends in a fault if one of them does and all before it hold (`alone_allHold_eq_error_iff`).

A condition asks for a module, or for nothing, or for a fact (`verdict_moduleName`,
`verdict_moduleVersion`, `verdict_fact`).
-/

namespace ProfileCompiler

namespace Confinement

open Inquiry

variable {host : Host} {confine : Entries}

/-- What one condition of a confinement comes to if it is judged alone. -/
def verdict (host : Host) (confine : Entries) (c : Scalar × Value) : Except Fault Bool :=
  (holds host confine c.1 c.2).alone

/-! ## Rows of conditions -/

@[simp] lemma alone_allHold_nil : (allHold host confine []).alone = .ok true := rfl

lemma alone_allHold_cons (c : Scalar × Value) (rest : List (Scalar × Value)) :
    (allHold host confine (c :: rest)).alone = verdict host confine c >>= fun held =>
      if held then (allHold host confine rest).alone else .ok false := by
  have hrest : ∀ held : Bool, Repeatable host
      (if held then allHold host confine rest else (pure false : Inquiry Bool)) := by
    intro held
    split
    · exact repeatable_allHold host confine rest
    · exact repeatable_pure host false
  have hcons : (allHold host confine (c :: rest)).alone = verdict host confine c >>= fun held =>
      (if held then allHold host confine rest else (pure false : Inquiry Bool)).alone :=
    alone_bind (repeatable_holds host confine c.1 c.2) hrest
  rw [hcons]
  congr 1
  funext held
  cases held <;> rfl

/-- Conditions are judged like their parts in turn; the second part counts if the first holds. -/
lemma alone_allHold_append (xs ys : List (Scalar × Value)) :
    (allHold host confine (xs ++ ys)).alone = (allHold host confine xs).alone >>= fun held =>
      if held then (allHold host confine ys).alone else .ok false := by
  induction xs with
  | nil => rfl
  | cons c xs ih =>
    rw [List.cons_append, alone_allHold_cons, alone_allHold_cons, ih]
    cases verdict host confine c with
    | error fault => rfl
    | ok held => cases held <;> rfl

lemma alone_allHold_eq_true_iff {conditions : List (Scalar × Value)} :
    (allHold host confine conditions).alone = .ok true ↔
      ∀ c ∈ conditions, verdict host confine c = .ok true := by
  induction conditions with
  | nil => simp
  | cons c rest ih =>
    rw [alone_allHold_cons, List.forall_mem_cons, ← ih]
    cases verdict host confine c with
    | error fault => simp [bind, Except.bind]
    | ok held => cases held <;> simp [bind, Except.bind]

/-- Conditions end in a fault if one of them does, all before it holding. -/
lemma alone_allHold_eq_error_iff {conditions : List (Scalar × Value)} {fault : Fault} :
    (allHold host confine conditions).alone = .error fault ↔
      ∃ before c after, conditions = before ++ c :: after ∧
        (∀ b ∈ before, verdict host confine b = .ok true) ∧
        verdict host confine c = .error fault := by
  constructor
  · intro h
    induction conditions with
    | nil => cases h
    | cons c rest ih =>
      rw [alone_allHold_cons, Except.bind_eq_error_iff] at h
      obtain hfault | ⟨held, hheld, hrest⟩ := h
      · exact ⟨[], c, rest, rfl, List.forall_mem_nil _, hfault⟩
      · cases held with
        | false => cases hrest
        | true =>
          obtain ⟨before, d, after, rfl, hbefore, hd⟩ := ih hrest
          exact ⟨c :: before, d, after, rfl, List.forall_mem_cons.2 ⟨hheld, hbefore⟩, hd⟩
  · rintro ⟨before, c, after, rfl, hbefore, hc⟩
    rw [alone_allHold_append, alone_allHold_eq_true_iff.2 hbefore]
    show (allHold host confine (c :: after)).alone = _
    rw [alone_allHold_cons, hc]
    rfl

/-- Conditions that do not all hold are not judged beyond the first that does not. -/
lemma alone_allHold_append_of_not {xs ys : List (Scalar × Value)}
    (h : ¬ ∀ c ∈ xs, verdict host confine c = .ok true) :
    (allHold host confine (xs ++ ys)).alone = (allHold host confine xs).alone := by
  rw [alone_allHold_append]
  cases hxs : (allHold host confine xs).alone with
  | error fault => rfl
  | ok held =>
    cases held with
    | false => rfl
    | true => exact absurd (alone_allHold_eq_true_iff.1 hxs) h

lemma alone_allHold_append_of_all {xs ys : List (Scalar × Value)}
    (h : ∀ c ∈ xs, verdict host confine c = .ok true) :
    (allHold host confine (xs ++ ys)).alone = (allHold host confine ys).alone := by
  rw [alone_allHold_append, alone_allHold_eq_true_iff.2 h]
  rfl

/-- An entry with a confinement applies if the conditions of the confinement hold. -/
lemma applies_of_confine {entries conditions : Entries}
    (h : Table.get? (.text "confine") entries = some (.mapping conditions)) (location : String)
    (name : Scalar) :
    applies host location name (.mapping entries) = allHold host conditions conditions := by
  unfold applies
  simp only [h]
  cases conditions with
  | nil => rfl
  | cons c rest => rfl

/-! ## Single conditions -/

lemma verdict_moduleName (expected : Value) :
    verdict host confine (moduleNameKey, expected) =
      (moduleApplies host expected (confine.get? moduleVersionKey)).alone := by
  show (holds host confine moduleNameKey expected).alone = _
  unfold holds
  rw [if_pos BEq.rfl]

lemma verdict_moduleVersion (expected : Value) (h : confine.has moduleNameKey = true) :
    verdict host confine (moduleVersionKey, expected) = .ok true := by
  show (holds host confine moduleVersionKey expected).alone = _
  unfold holds
  rw [if_neg (by decide), if_pos (by rw [h]; decide)]
  rfl

/-- Whether a condition asks the host for a fact. -/
def asksFact (confine : Entries) (key : Scalar) : Bool :=
  !(key == moduleNameKey) && !(key == moduleVersionKey && confine.has moduleNameKey)

lemma holds_of_asksFact {key : Scalar} (h : asksFact confine key = true) (expected : Value) :
    holds host confine key expected = (do
      let fact ← Inquiry.fact host key
      pure (fact.isNull || matchesFact fact expected)) := by
  simp only [asksFact, Bool.and_eq_true, Bool.not_eq_true'] at h
  unfold holds
  rw [if_neg (by simp [h.1]), if_neg (by simp [h.2])]

lemma verdict_fact {key : Scalar} (h : asksFact confine key = true) (expected : Value) :
    verdict host confine (key, expected) =
      host.fact key >>= fun fact => .ok (fact.isNull || matchesFact fact expected) := by
  show (holds host confine key expected).alone = _
  rw [holds_of_asksFact h, alone_bind (repeatable_fact host key) fun _ => repeatable_pure host _]
  rfl

/-- A condition depends on the other conditions by their module keys alone. -/
lemma verdict_congr {confine' : Entries}
    (hname : confine.has moduleNameKey = confine'.has moduleNameKey)
    (hversion : confine.get? moduleVersionKey = confine'.get? moduleVersionKey)
    (c : Scalar × Value) : verdict host confine c = verdict host confine' c := by
  unfold verdict holds
  rw [hname, hversion]

lemma alone_allHold_congr {confine' : Entries}
    (hname : confine.has moduleNameKey = confine'.has moduleNameKey)
    (hversion : confine.get? moduleVersionKey = confine'.get? moduleVersionKey)
    (conditions : List (Scalar × Value)) :
    (allHold host confine conditions).alone = (allHold host confine' conditions).alone := by
  induction conditions with
  | nil => rfl
  | cons c rest ih =>
    rw [alone_allHold_cons, alone_allHold_cons, verdict_congr hname hversion c, ih]

end Confinement

end ProfileCompiler
