import ProfileCompiler.Proofs.Confinement.Conditions

/-!
# What judging asks of the host

Judging entries asks the host for facts, and for its module list unless the list is there already.
`Inquiry.Asks` says of an inquiry which facts it asks for, in order, and whether it needs the module
list; that does not depend on whether the list was fetched before.  Inquiries in turn ask what each
of them asks (`Asks.bind`), up to the first that ends in a fault (`Asks.bind_of_error`).

The conditions of an entry are gone through up to and including the first that does not hold
(`Confinement.reached`), and the entries up to and including the first that cannot be judged
(`Confinement.considered`).  Judging asks for the facts among the conditions that are reached, and
it needs the module list if one of these is a `module_name` (`Confinement.asks_judge`).
-/

namespace ProfileCompiler

/-- The items of a list up to and including the first that fails a test. -/
def throughFirst {α : Type} (passes : α → Bool) : List α → List α
  | [] => []
  | a :: rest => a :: if passes a then throughFirst passes rest else []

lemma throughFirst_of_forall {α : Type} {passes : α → Bool} {xs : List α}
    (h : ∀ a ∈ xs, passes a = true) : throughFirst passes xs = xs := by
  induction xs with
  | nil => rfl
  | cons a xs ih =>
    obtain ⟨ha, hxs⟩ := List.forall_mem_cons.1 h
    unfold throughFirst
    rw [if_pos ha, ih hxs]

lemma throughFirst_append_cons {α : Type} {passes : α → Bool} {before : List α} {a : α}
    (hbefore : ∀ b ∈ before, passes b = true) (ha : passes a = false) (after : List α) :
    throughFirst passes (before ++ a :: after) = before ++ [a] := by
  induction before with
  | nil =>
    show a :: (if passes a then _ else []) = [a]
    rw [ha]
    rfl
  | cons b before ih =>
    obtain ⟨hb, hbefore⟩ := List.forall_mem_cons.1 hbefore
    rw [List.cons_append, throughFirst, if_pos hb, ih hbefore, List.cons_append]

namespace Told

@[simp] lemma facts_nil : facts [] = [] := rfl

@[simp] lemma facts_append (xs ys : List Event) : facts (xs ++ ys) = facts xs ++ facts ys :=
  List.filterMap_append

@[simp] lemma fetches_nil : fetches [] = 0 := rfl

@[simp] lemma fetches_append (xs ys : List Event) :
    fetches (xs ++ ys) = fetches xs + fetches ys := by
  unfold fetches
  rw [List.filter_append, List.length_append]

end Told

/-! ## Questions of inquiries in turn -/

namespace Inquiry

variable {α β : Type} {host : Host} {x : Inquiry α} {f : α → Inquiry β}
  {first second : List Scalar} {needsFirst needsSecond : Bool}

lemma events_bind_of_ok {inventory : Inventory} {a : α}
    (h : (x inventory).1.outcome = .ok a) (f : α → Inquiry β) :
    ((x >>= f) inventory).1.events =
      (x inventory).1.events ++ (f a (x inventory).2).1.events := by
  show (andThen x f inventory).1.events = _
  unfold andThen
  simp [h]

lemma events_bind_of_error {inventory : Inventory} {fault : Fault}
    (h : (x inventory).1.outcome = .error fault) (f : α → Inquiry β) :
    ((x >>= f) inventory).1.events = (x inventory).1.events := by
  show (andThen x f inventory).1.events = _
  unfold andThen
  simp [h]

/-- An inquiry asks for the given facts in turn, and it needs the module list or not.  A list that
is needed is fetched once if it is not there.  If the host cannot give it, that is the fault in
which the inquiry ends. -/
structure Asks (host : Host) (facts : List Scalar) (needs : Bool) (x : Inquiry α) : Prop where
  facts_eq : ∀ inventory, Current host inventory → Told.facts (x inventory).1.events = facts
  fetches_eq : ∀ inventory, Current host inventory →
    Told.fetches (x inventory).1.events = if needs && inventory.isNone then 1 else 0
  inventory_eq : ∀ inventory, Current host inventory →
    (x inventory).2 = if needs then host.modules.toOption else inventory
  alone_eq : needs = true → ∀ fault, host.modules = .error fault → x.alone = .error fault

lemma asks_tell {y : Told α} (hfacts : Told.facts y.events = [])
    (hfetches : Told.fetches y.events = 0) : Asks host [] false (tell y) where
  facts_eq _ _ := hfacts
  fetches_eq _ _ := hfetches
  inventory_eq _ _ := rfl
  alone_eq h := Bool.noConfusion h

lemma asks_pure (a : α) : Asks host [] false (pure a : Inquiry α) := asks_tell rfl rfl

lemma asks_note (n : Note) : Asks host [] false (note n) := asks_tell rfl rfl

lemma asks_fail (fault : Fault) : Asks host [] false (fail fault : Inquiry α) := asks_tell rfl rfl

lemma asks_fact (name : Scalar) : Asks host [name] false (fact host name) where
  facts_eq _ _ := rfl
  fetches_eq _ _ := rfl
  inventory_eq _ _ := rfl
  alone_eq h := Bool.noConfusion h

lemma asks_modules : Asks host [] true (modules host) where
  facts_eq inventory _ := by cases inventory <;> rfl
  fetches_eq inventory _ := by cases inventory <;> rfl
  inventory_eq inventory hcurrent := by
    cases inventory with
    | none => rfl
    | some records => exact hcurrent.resolve_left (by simp)
  alone_eq _ _ hmodules := hmodules

lemma Asks.bind_of_error {fault : Fault} (hx : Asks host first needsFirst x)
    (hrepeatable : Repeatable host x) (h : x.alone = .error fault) (f : α → Inquiry β) :
    Asks host first needsFirst (x >>= f) := by
  have houtcome : ∀ inventory, Current host inventory →
      (x inventory).1.outcome = .error fault :=
    fun inventory hcurrent => (hrepeatable inventory hcurrent).1.trans h
  constructor
  · intro inventory hcurrent
    rw [events_bind_of_error (houtcome inventory hcurrent), hx.facts_eq inventory hcurrent]
  · intro inventory hcurrent
    rw [events_bind_of_error (houtcome inventory hcurrent), hx.fetches_eq inventory hcurrent]
  · intro inventory hcurrent
    rw [(Inquiry.bind_of_error (houtcome inventory hcurrent) f).2,
      hx.inventory_eq inventory hcurrent]
  · intro hneeds missing hmissing
    have hfault : Except.error fault = Except.error missing :=
      h.symm.trans (hx.alone_eq hneeds missing hmissing)
    rw [← Except.error.inj hfault]
    exact (Inquiry.bind_of_error h f).1

lemma Asks.bind {a : α} (hx : Asks host first needsFirst x) (hrepeatable : Repeatable host x)
    (ha : x.alone = .ok a) (hf : Asks host second needsSecond (f a)) :
    Asks host (first ++ second) (needsFirst || needsSecond) (x >>= f) := by
  have houtcome : ∀ inventory, Current host inventory → (x inventory).1.outcome = .ok a :=
    fun inventory hcurrent => (hrepeatable inventory hcurrent).1.trans ha
  have hafter : ∀ inventory, Current host inventory → Current host (x inventory).2 :=
    fun inventory hcurrent => (hrepeatable inventory hcurrent).2
  -- A list that the first part needed is there for the second.
  have hthere : needsFirst = true → host.modules.toOption.isNone = false := by
    intro hneeds
    cases hmodules : host.modules with
    | ok records => rfl
    | error fault => cases ha.symm.trans (hx.alone_eq hneeds fault hmodules)
  constructor
  · intro inventory hcurrent
    rw [events_bind_of_ok (houtcome inventory hcurrent), Told.facts_append,
      hx.facts_eq inventory hcurrent, hf.facts_eq _ (hafter inventory hcurrent)]
  · intro inventory hcurrent
    rw [events_bind_of_ok (houtcome inventory hcurrent), Told.fetches_append,
      hx.fetches_eq inventory hcurrent, hf.fetches_eq _ (hafter inventory hcurrent),
      hx.inventory_eq inventory hcurrent]
    cases needsFirst with
    | false => simp
    | true => simp [hthere rfl]
  · intro inventory hcurrent
    rw [(bind_of_ok (houtcome inventory hcurrent) f).2,
      hf.inventory_eq _ (hafter inventory hcurrent), hx.inventory_eq inventory hcurrent]
    cases needsFirst <;> cases needsSecond <;> rfl
  · intro hneeds fault hfault
    cases needsFirst with
    | true =>
      rw [hfault] at hthere
      cases hthere rfl
    | false =>
      -- The first part left the list as it was, so the second is made alone.
      have hnone : (x none).2 = none := hx.inventory_eq none (Or.inl rfl)
      show ((x >>= f) none).1.outcome = _
      rw [(bind_of_ok ha f).1, hnone]
      exact hf.alone_eq hneeds fault hfault

end Inquiry

/-! ## Questions of judging -/

namespace Confinement

open Inquiry

variable {host : Host} {confine : Entries}

lemma asks_recordsNamed (name : Value) (records : List Value) :
    Asks host [] false (tell (.of (recordsNamed name records))) := asks_tell rfl rfl

lemma asks_moduleApplies (name : Value) (required : Option Value) :
    Asks host [] true (moduleApplies host name required) := by
  unfold moduleApplies
  cases hmodules : host.modules with
  | error fault => exact asks_modules.bind_of_error (repeatable_modules host) hmodules _
  | ok records =>
    -- The list is asked for first, and nothing behind that asks the host for anything.
    show Asks host ([] ++ []) (true || false) _
    refine asks_modules.bind (repeatable_modules host) hmodules ?_
    cases hnamed : recordsNamed name records with
    | error fault =>
      rw [← hnamed]
      exact (asks_recordsNamed name records).bind_of_error (repeatable_tell host _) hnamed _
    | ok named =>
      rw [← hnamed]
      show Asks host ([] ++ []) (false || false) _
      refine (asks_recordsNamed name records).bind (repeatable_tell host _) hnamed ?_
      split
      · exact asks_pure false
      · split
        · exact asks_pure true
        · split
          · exact asks_pure true
          · split
            · exact asks_pure _
            · split
              · exact (asks_note _).bind (repeatable_note host _) rfl (asks_pure false)
              · exact asks_fail _

lemma asks_holds (host : Host) (confine : Entries) (key : Scalar) (expected : Value) :
    Asks host (if asksFact confine key then [key] else []) (key == moduleNameKey)
      (holds host confine key expected) := by
  cases hasks : asksFact confine key with
  | true =>
    have hname : (key == moduleNameKey) = false := by
      simp only [asksFact, Bool.and_eq_true, Bool.not_eq_true'] at hasks
      exact hasks.1
    rw [holds_of_asksFact hasks, hname]
    cases hfact : host.fact key with
    | error fault => exact (asks_fact key).bind_of_error (repeatable_fact host key) hfact _
    | ok fact => exact (asks_fact key).bind (repeatable_fact host key) hfact (asks_pure _)
  | false =>
    unfold holds
    by_cases hname : (key == moduleNameKey) = true
    · rw [if_pos hname, hname]
      exact asks_moduleApplies _ _
    · have hversion : (key == moduleVersionKey && confine.has moduleNameKey) = true := by
        simpa [asksFact, hname] using hasks
      rw [if_neg hname, if_pos hversion, Bool.eq_false_iff.2 hname]
      exact asks_pure true

/-- Whether a condition holds if it is judged alone. -/
def holdsAlone (host : Host) (confine : Entries) (c : Scalar × Value) : Bool :=
  match verdict host confine c with
  | .ok held => held
  | .error _ => false

/-- The keys among some conditions that ask for a fact. -/
def factKeys (confine : Entries) (conditions : List (Scalar × Value)) : List Scalar :=
  (conditions.map Prod.fst).filter (asksFact confine)

/-- Whether a module is asked for among some conditions. -/
def namesModule (conditions : List (Scalar × Value)) : Bool :=
  conditions.any fun c => c.1 == moduleNameKey

lemma factKeys_cons (c : Scalar × Value) (conditions : List (Scalar × Value)) :
    factKeys confine (c :: conditions) =
      (if asksFact confine c.1 then [c.1] else []) ++ factKeys confine conditions := by
  unfold factKeys
  rw [List.map_cons, List.filter_cons]
  split <;> rfl

lemma asks_allHold (conditions : List (Scalar × Value)) :
    Asks host (factKeys confine (throughFirst (holdsAlone host confine) conditions))
      (namesModule (throughFirst (holdsAlone host confine) conditions))
      (allHold host confine conditions) := by
  induction conditions with
  | nil => exact asks_pure true
  | cons c rest ih =>
    have hfirst := asks_holds host confine c.1 c.2
    have hrepeatable := repeatable_holds host confine c.1 c.2
    unfold throughFirst allHold
    rw [factKeys_cons]
    show Asks host _ (c.1 == moduleNameKey || namesModule _) _
    cases hverdict : verdict host confine c with
    | error fault =>
      rw [show holdsAlone host confine c = false by simp [holdsAlone, hverdict]]
      simpa [factKeys, namesModule] using hfirst.bind_of_error hrepeatable hverdict _
    | ok held =>
      rw [show holdsAlone host confine c = held by simp [holdsAlone, hverdict]]
      cases held with
      | false => exact hfirst.bind hrepeatable hverdict (asks_pure false)
      | true => exact hfirst.bind hrepeatable hverdict ih

/-- The conditions of the confinement of a body; a body that is no mapping or whose confinement is
none has no conditions. -/
def conditions (body : Value) : Entries :=
  match body.entries?.bind (Table.get? (.text "confine")) with
  | some (.mapping conditions) => conditions
  | _ => []

/-- The conditions of a body that judging it gets to. -/
def reached (host : Host) (body : Value) : List (Scalar × Value) :=
  throughFirst (holdsAlone host (conditions body)) (conditions body)

/-- The facts that judging a body asks for. -/
def factsAsked (host : Host) (body : Value) : List Scalar :=
  factKeys (conditions body) (reached host body)

/-- Whether judging a body gets to a condition that asks for a module. -/
def needsModules (host : Host) (body : Value) : Bool := namesModule (reached host body)

lemma asks_applies (host : Host) (location : String) (name : Scalar) (body : Value) :
    Asks host (factsAsked host body) (needsModules host body)
      (applies host location name body) := by
  -- A body without conditions asks nothing, whether it is passed over or ends judging.
  have hquiet : ∀ x : Inquiry Bool, conditions body = [] → Asks host [] false x →
      Asks host (factsAsked host body) (needsModules host body) x := by
    intro x hnone hx
    rw [factsAsked, needsModules, reached, hnone]
    exact hx
  cases body with
  | scalar s => exact hquiet _ rfl (asks_pure true)
  | list items => exact hquiet _ rfl (asks_pure true)
  | mapping entries =>
    cases hconfine : Table.get? (.text "confine") entries with
    | none =>
      refine hquiet _ ?_ ?_
      · simp [conditions, Value.entries?, hconfine]
      · unfold applies
        simp only [hconfine]
        exact asks_pure true
    | some confine =>
      cases confine with
      | mapping row =>
        have hrow : conditions (.mapping entries) = row := by
          simp [conditions, Value.entries?, hconfine]
        rw [applies_of_confine hconfine, factsAsked, needsModules, reached, hrow]
        exact asks_allHold row
      | _ =>
        refine hquiet _ (by simp [conditions, Value.entries?, hconfine]) ?_
        unfold applies
        simp only [hconfine]
        split
        · exact asks_pure true
        · split
          · exact (asks_note _).bind (repeatable_note host _) rfl (asks_pure true)
          · exact asks_fail _

/-- Whether an entry can be judged alone. -/
def canBeJudged (host : Host) (location : String) (e : Scalar × Value) : Bool :=
  match (applies host location e.1 e.2).alone with
  | .ok _ => true
  | .error _ => false

lemma canBeJudged_iff {location : String} {e : Scalar × Value} :
    canBeJudged host location e = true ↔ Judged host location e := by
  unfold canBeJudged Judged
  cases (applies host location e.1 e.2).alone <;> simp

/-- The entries that judging gets to. -/
def considered (host : Host) (location : String) (entries : List (Scalar × Value)) :
    List (Scalar × Value) :=
  throughFirst (canBeJudged host location) entries

lemma considered_of_judged {location : String} {entries : List (Scalar × Value)}
    (h : ∀ e ∈ entries, Judged host location e) : considered host location entries = entries :=
  throughFirst_of_forall fun e he => canBeJudged_iff.2 (h e he)

/-- Judging entries asks for the facts that each entry asks for, in turn, up to the first entry that
cannot be judged, and it needs the module list if one of these entries does. -/
lemma asks_judge (host : Host) (location : String) (entries : List (Scalar × Value)) :
    Asks host ((considered host location entries).flatMap fun e => factsAsked host e.2)
      ((considered host location entries).any fun e => needsModules host e.2)
      (judge host location entries) := by
  induction entries with
  | nil => exact asks_pure []
  | cons e rest ih =>
    have hfirst := asks_applies host location e.1 e.2
    have hrepeatable := repeatable_applies host location e.1 e.2
    unfold considered throughFirst judge
    rw [List.flatMap_cons, List.any_cons]
    cases halone : (applies host location e.1 e.2).alone with
    | error fault =>
      rw [show canBeJudged host location e = false by simp [canBeJudged, halone]]
      simpa using hfirst.bind_of_error hrepeatable halone _
    | ok held =>
      rw [show canBeJudged host location e = true by simp [canBeJudged, halone]]
      refine hfirst.bind hrepeatable halone ?_
      cases hjudge : (judge host location rest).alone with
      | error fault => exact ih.bind_of_error (repeatable_judge host location rest) hjudge _
      | ok verdicts =>
        have hlast := ih.bind (f := fun more => (pure (held :: more) : Inquiry (List Bool)))
          (repeatable_judge host location rest) hjudge (asks_pure _)
        rw [List.append_nil, Bool.or_false] at hlast
        exact hlast

end Confinement

end ProfileCompiler
