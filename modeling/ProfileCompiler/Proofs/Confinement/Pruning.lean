import ProfileCompiler.Proofs.Confinement.Holding
import ProfileCompiler.Proofs.Confinement.Questions
import ProfileCompiler.Proofs.Table

/-!
# Pruning is atomic

A mapping that is pruned in its place is either left as it was, because one of its entries cannot
be judged, or it keeps exactly the entries that pass when they are judged alone (`Prunes`).  The
facts asked for on the way are those of the entries in turn, and each of them asks up to its first
condition that does not hold.

Mappings that are pruned one after the other share one module list.  The host is asked for it where
judging gets to a `module_name` and the list is not there yet.  Once the host has given it, the host
is not asked again; an answer that is a fault is no list, so the next mapping that needs one asks
anew.  Both are stated by `pruneEach_prunes`, for a host that may answer differently each time.
-/

namespace ProfileCompiler

namespace Confinement

open Inquiry

variable {host : Host} {location : String}

/-- The names of rejected entries are dropped one after the other, and each is noted. -/
lemma dropAll_eq (location : String) (names : List Scalar) (entries : Entries) :
    dropAll location names entries =
      Inquiry.tell ⟨names.map fun name => .noted (.outsideConfinement name location),
        .ok (entries.eraseAll names)⟩ := by
  induction names generalizing entries with
  | nil => rfl
  | cons name rest ih =>
    unfold dropAll
    rw [ih]
    rfl

lemma facts_notes (names : List Scalar) :
    Told.facts (names.map fun name => .noted (.outsideConfinement name location)) = [] := by
  induction names with
  | nil => rfl
  | cons name rest ih => exact ih

lemma fetches_notes (names : List Scalar) :
    Told.fetches (names.map fun name => .noted (.outsideConfinement name location)) = 0 := by
  induction names with
  | nil => rfl
  | cons name rest ih => exact ih

lemma prune_of_ok {entries : Entries} {inventory : Inventory} {verdicts : List Bool}
    (h : (judge host location entries inventory).1.outcome = .ok verdicts) :
    prune host location entries inventory =
      (⟨(judge host location entries inventory).1.events ++
          (withVerdict false entries verdicts).keys.map fun name =>
            .noted (.outsideConfinement name location),
        .ok ⟨entries.eraseAll (withVerdict false entries verdicts).keys, none⟩⟩,
      (judge host location entries inventory).2) := by
  unfold prune
  show andThen (attempt (judge host location entries)) _ inventory = _
  simp only [andThen, attempt, h, dropAll_eq]
  show (Told.mk (_ ++ (_ ++ [])) _, _) = _
  rw [List.append_nil]
  rfl

lemma prune_of_error {entries : Entries} {inventory : Inventory} {fault : Fault}
    (h : (judge host location entries inventory).1.outcome = .error fault) :
    prune host location entries inventory =
      (⟨(judge host location entries inventory).1.events, .ok ⟨entries, some fault⟩⟩,
      (judge host location entries inventory).2) := by
  unfold prune
  show andThen (attempt (judge host location entries)) _ inventory = _
  simp only [andThen, attempt, h]
  show (Told.mk (_ ++ []) _, _) = _
  rw [List.append_nil]
  rfl

lemma noteRejected_eq (location : String) (names : List Scalar) :
    noteRejected location names =
      Inquiry.tell ⟨names.map fun name => .noted (.outsideConfinement name location), .ok ()⟩ := by
  induction names with
  | nil => rfl
  | cons name rest ih =>
    unfold noteRejected
    rw [ih]
    rfl

lemma apply_of_ok {entries : Entries} {inventory : Inventory} {verdicts : List Bool}
    (h : (judge host location entries inventory).1.outcome = .ok verdicts) :
    apply host location entries inventory =
      (⟨(judge host location entries inventory).1.events ++
          (withVerdict false entries verdicts).keys.map fun name =>
            .noted (.outsideConfinement name location),
        .ok (withVerdict true entries verdicts)⟩,
      (judge host location entries inventory).2) := by
  unfold apply
  show andThen (judge host location entries) _ inventory = _
  simp only [andThen, h, noteRejected_eq]
  show (Told.mk (_ ++ (_ ++ [])) _, _) = _
  rw [List.append_nil]
  rfl

lemma apply_of_error {entries : Entries} {inventory : Inventory} {fault : Fault}
    (h : (judge host location entries inventory).1.outcome = .error fault) :
    apply host location entries inventory =
      (⟨(judge host location entries inventory).1.events, .error fault⟩,
      (judge host location entries inventory).2) := by
  unfold apply
  show andThen (judge host location entries) _ inventory = _
  simp only [andThen, h]

/-- Entries cannot be judged together if one of them cannot, in the fault of the first such. -/
lemma alone_judge_eq_error_iff {entries : List (Scalar × Value)} {fault : Fault} :
    (judge host location entries).alone = .error fault ↔
      ∃ before e after, entries = before ++ e :: after ∧
        (∀ b ∈ before, Judged host location b) ∧
        (applies host location e.1 e.2).alone = .error fault := by
  induction entries with
  | nil =>
    refine iff_of_false nofun ?_
    rintro ⟨before, e, after, heq, -⟩
    simp at heq
  | cons e rest ih =>
    -- The inventory that the first entry leaves makes no difference to the others.
    have hmore : ∀ verdict, Repeatable host
        (judge host location rest >>= fun more => (pure (verdict :: more) : Inquiry _)) :=
      fun _ => (repeatable_judge host location rest).bind fun _ => repeatable_pure host _
    unfold judge
    rw [alone_bind (repeatable_applies host location _ _) hmore, Except.bind_eq_error_iff]
    simp only [alone_bind (repeatable_judge host location rest) fun _ => repeatable_pure host _,
      alone_pure, Except.bind_ok_eq_error_iff, ih]
    constructor
    · rintro (hfault | ⟨verdict, hverdict, before, a, after, rfl, hbefore, ha⟩)
      · exact ⟨[], e, rest, rfl, List.forall_mem_nil _, hfault⟩
      · exact ⟨e :: before, a, after, rfl,
          List.forall_mem_cons.2 ⟨⟨verdict, hverdict⟩, hbefore⟩, ha⟩
    · rintro ⟨before, a, after, heq, hbefore, ha⟩
      cases before with
      | nil =>
        obtain ⟨rfl, rfl⟩ := List.cons.inj heq
        exact .inl ha
      | cons b before =>
        obtain ⟨rfl, rfl⟩ := List.cons.inj heq
        obtain ⟨⟨verdict, hverdict⟩, hbefore⟩ := List.forall_mem_cons.1 hbefore
        exact .inr ⟨verdict, hverdict, before, a, after, rfl, hbefore, ha⟩

/-! ## One mapping -/

/-- What is left of a mapping that is pruned, and the facts asked for.  If every entry can be judged
alone, the mapping keeps the entries that pass, in order.  Otherwise it keeps all its entries, and
the fault is that of the first entry that cannot be judged, with which judging ends. -/
inductive Prunes (host : Host) (location : String) (entries : Entries) :
    Pruned → List Scalar → Prop where
  | filtered : (∀ e ∈ entries, Judged host location e) →
      Prunes host location entries ⟨entries.filter (passes host location), none⟩
        (entries.flatMap fun e => factsAsked host e.2)
  | untouched {before e after fault} : entries = before ++ e :: after →
      (∀ b ∈ before, Judged host location b) →
      (applies host location e.1 e.2).alone = .error fault →
      Prunes host location entries ⟨entries, some fault⟩
        ((before ++ [e]).flatMap fun e => factsAsked host e.2)

lemma prune_prunes {entries : Entries} (hdistinct : entries.Distinct) {inventory : Inventory}
    (hcurrent : Current host inventory) :
    ∃ left, (prune host location entries inventory).1.outcome = .ok left ∧
      Prunes host location entries left
        (Told.facts (prune host location entries inventory).1.events) := by
  obtain ⟨houtcome, -⟩ := repeatable_judge host location entries inventory hcurrent
  have hfacts := (asks_judge host location entries).facts_eq inventory hcurrent
  cases halone : (judge host location entries).alone with
  | ok verdicts =>
    obtain ⟨hjudged, rfl⟩ := alone_judge_eq_ok_iff.1 halone
    have hkept : entries.eraseAll (withVerdict false entries
        (entries.map (passes host location))).keys = entries.filter (passes host location) := by
      rw [withVerdict_map]
      simpa using Table.eraseAll_keys_filter hdistinct (passes host location)
    rw [prune_of_ok (houtcome.trans halone)]
    refine ⟨_, rfl, ?_⟩
    rw [Told.facts_append, facts_notes, List.append_nil, hfacts, considered_of_judged hjudged,
      hkept]
    exact .filtered hjudged
  | error fault =>
    -- The facts asked for are those of the entries up to the one that cannot be judged.
    obtain ⟨before, e, after, heq, hbefore, he⟩ := alone_judge_eq_error_iff.1 halone
    have hconsidered : considered host location entries = before ++ [e] := by
      rw [heq]
      exact throughFirst_append_cons (fun b hb => canBeJudged_iff.2 (hbefore b hb))
        (by simp [canBeJudged, he]) after
    rw [prune_of_error (houtcome.trans halone)]
    refine ⟨_, rfl, ?_⟩
    rw [hfacts, hconsidered]
    exact .untouched heq hbefore he

/-- Entries that are taken from a mapping, and the mapping pruned in its place, come to the same
with the same events. -/
theorem apply_eq_prune {entries : Entries} (hdistinct : entries.Distinct) {inventory : Inventory}
    (hcurrent : Current host inventory) :
    (apply host location entries inventory).1.events =
        (prune host location entries inventory).1.events ∧
      (apply host location entries inventory).1.outcome =
        (prune host location entries inventory).1.outcome >>= fun left =>
          match left.fault with
          | none => .ok left.entries
          | some fault => .error fault := by
  obtain ⟨houtcome, -⟩ := repeatable_judge host location entries inventory hcurrent
  cases halone : (judge host location entries).alone with
  | ok verdicts =>
    obtain ⟨-, rfl⟩ := alone_judge_eq_ok_iff.1 halone
    rw [apply_of_ok (houtcome.trans halone), prune_of_ok (houtcome.trans halone)]
    refine ⟨rfl, congrArg Except.ok ?_⟩
    rw [withVerdict_true_map, withVerdict_map]
    simpa using (Table.eraseAll_keys_filter hdistinct (passes host location)).symm
  | error fault =>
    rw [apply_of_error (houtcome.trans halone), prune_of_error (houtcome.trans halone)]
    exact ⟨rfl, rfl⟩

/-- Whether judging a mapping gets to a condition that asks for a module. -/
def seeksModules (host : Host) (location : String) (entries : Entries) : Bool :=
  (considered host location entries).any fun e => needsModules host e.2

/-- The events of pruning are those of judging, and notes. -/
lemma fetches_prune (host : Host) (location : String) (entries : Entries) (inventory : Inventory) :
    Told.fetches (prune host location entries inventory).1.events =
        Told.fetches (judge host location entries inventory).1.events ∧
      (prune host location entries inventory).2 = (judge host location entries inventory).2 := by
  cases houtcome : (judge host location entries inventory).1.outcome with
  | ok verdicts =>
    rw [prune_of_ok houtcome, Told.fetches_append, fetches_notes]
    exact ⟨rfl, rfl⟩
  | error fault =>
    rw [prune_of_error houtcome]
    exact ⟨rfl, rfl⟩

lemma fetches_prune_eq (host : Host) (location : String) (entries : Entries) {inventory : Inventory}
    (hcurrent : Current host inventory) :
    Told.fetches (prune host location entries inventory).1.events =
        (if seeksModules host location entries && inventory.isNone then 1 else 0) ∧
      (prune host location entries inventory).2 =
        if seeksModules host location entries then host.modules.toOption else inventory := by
  obtain ⟨hfetches, hafter⟩ := fetches_prune host location entries inventory
  have hasks := asks_judge host location entries
  exact ⟨hfetches.trans (hasks.fetches_eq inventory hcurrent),
    hafter.trans (hasks.inventory_eq inventory hcurrent)⟩

/-! ## Mappings one after the other -/

/-- A mapping that is to be pruned, and the host as it answers by then. -/
structure Visit where
  host : Host
  location : String
  entries : Entries

/-- A visit that has been made: the module list that was there before it, and what it came to. -/
structure Turn extends Visit where
  held : Inventory
  told : Told Pruned

/-- Mappings pruned one after the other, each with the list that is there by then. -/
def pruneEach : List Visit → Inventory → List Turn
  | [], _ => []
  | v :: rest, held =>
    ⟨v, held, (prune v.host v.location v.entries held).1⟩ ::
      pruneEach rest (prune v.host v.location v.entries held).2

namespace Turn

/-- The host as it shows in a turn: where a module list is there, it is that list which counts. -/
def shown (t : Turn) : Host := t.host.holding t.held

/-- How often the host is asked for its module list. -/
def fetches (t : Turn) : Nat := Told.fetches t.told.events

/-- Whether judging gets to a condition that asks for a module. -/
def seeks (t : Turn) : Bool := seeksModules t.shown t.location t.entries

/-- Whether the host is asked for its module list and gives it. -/
def obtains (t : Turn) : Bool := t.fetches != 0 && t.host.modules.isOk

end Turn

variable {visits : List Visit} {held : Inventory} {t : Turn}

lemma prune_holding (host : Host) (held : Inventory) (location : String) (entries : Entries) :
    prune host location entries held = prune (host.holding held) location entries held := by
  unfold prune
  show andThen (attempt (judge host location entries)) _ held =
    andThen (attempt (judge (host.holding held) location entries)) _ held
  simp only [andThen, attempt, judge_holding host held]

lemma map_toVisit_pruneEach (visits : List Visit) (held : Inventory) :
    (pruneEach visits held).map Turn.toVisit = visits := by
  induction visits generalizing held with
  | nil => rfl
  | cons v rest ih => exact congrArg (v :: ·) (ih _)

lemma toVisit_mem (h : t ∈ pruneEach visits held) : t.toVisit ∈ visits := by
  rw [← map_toVisit_pruneEach visits held]
  exact List.mem_map_of_mem h

/-- Every turn is a pruning on the host that shows in it. -/
lemma told_eq (h : t ∈ pruneEach visits held) :
    t.told = (prune t.shown t.location t.entries t.held).1 := by
  induction visits generalizing held with
  | nil => cases h
  | cons v rest ih =>
    rcases List.mem_cons.1 h with rfl | h
    · exact congrArg Prod.fst (prune_holding v.host held v.location v.entries)
    · exact ih h

/-- The host is asked where judging gets to a module and no list is there, and then once. -/
lemma fetches_eq (h : t ∈ pruneEach visits held) :
    t.fetches = if t.seeks && t.held.isNone then 1 else 0 := by
  rw [Turn.fetches, told_eq h]
  exact (fetches_prune_eq t.shown t.location t.entries (current_holding t.host t.held)).1

/-- The list that is there after a visit. -/
lemma kept_eq (v : Visit) (held : Inventory) :
    (prune v.host v.location v.entries held).2 =
      if seeksModules (v.host.holding held) v.location v.entries then
        (v.host.holding held).modules.toOption
      else held := by
  rw [prune_holding]
  exact (fetches_prune_eq _ v.location v.entries (current_holding v.host held)).2

/-- A list that is there stays there. -/
lemma kept_eq_of_some (v : Visit) (records : List Value) :
    (prune v.host v.location v.entries (some records)).2 = some records := by
  rw [kept_eq]
  split <;> rfl

lemma held_eq_of_some {records : List Value} (h : t ∈ pruneEach visits (some records)) :
    t.held = some records := by
  induction visits with
  | nil => cases h
  | cons v rest ih =>
    rw [pruneEach, kept_eq_of_some] at h
    rcases List.mem_cons.1 h with rfl | h
    · rfl
    · exact ih h

/-- Where the host is asked in vain the mapping is left as it was. -/
lemma outcome_of_vain (h : t ∈ pruneEach visits held) (hasked : t.fetches ≠ 0) {fault : Fault}
    (hmodules : t.host.modules = .error fault) :
    t.told.outcome = .ok ⟨t.entries, some fault⟩ := by
  have hseeks : (t.seeks && t.held.isNone) = true := by
    rw [fetches_eq h] at hasked
    simpa using hasked
  obtain ⟨hseeks, hnone⟩ := Bool.and_eq_true_iff.1 hseeks
  have hheld : t.held = none := Option.isNone_iff_eq_none.1 hnone
  have hshown : t.shown = t.host := by rw [Turn.shown, hheld]; rfl
  rw [Turn.seeks, hshown] at hseeks
  have halone : (judge t.host t.location t.entries).alone = .error fault :=
    (asks_judge t.host t.location t.entries).alone_eq hseeks fault hmodules
  rw [told_eq h, hshown, hheld, prune_of_error halone]

/-- A host that has given its module list is not asked again, and this is the list from then on. -/
lemma pairwise_pruneEach (visits : List Visit) (held : Inventory) :
    (pruneEach visits held).Pairwise fun t u =>
      t.obtains = true → u.fetches = 0 ∧ u.held = t.host.modules.toOption := by
  induction visits generalizing held with
  | nil => exact List.Pairwise.nil
  | cons v rest ih =>
    refine List.pairwise_cons.2 ⟨fun u hu hobtains => ?_, ih _⟩
    obtain ⟨hasked, hgiven⟩ := Bool.and_eq_true_iff.1 hobtains
    have hfirst : (⟨v, held, (prune v.host v.location v.entries held).1⟩ : Turn) ∈
        pruneEach (v :: rest) held := List.mem_cons_self
    rw [fetches_eq hfirst] at hasked
    obtain ⟨hseeks, hnone⟩ : seeksModules (v.host.holding held) v.location v.entries = true ∧
        held = none := by
      simpa [Turn.seeks, Turn.shown] using hasked
    cases hmodules : v.host.modules with
    | error fault => simp [hmodules, Except.isOk, Except.toBool] at hgiven
    | ok records =>
      have hkept : (prune v.host v.location v.entries held).2 = some records := by
        rw [kept_eq, if_pos hseeks, hnone, Host.holding, Option.elim_none, hmodules]
        rfl
      rw [hkept] at hu
      have hheld := held_eq_of_some hu
      refine ⟨?_, hheld⟩
      rw [fetches_eq hu, hheld, Option.isNone_some, Bool.and_false]
      rfl

/-- The module list is had once at most. -/
lemma countP_obtains_le_one (visits : List Visit) (held : Inventory) :
    (pruneEach visits held).countP Turn.obtains ≤ 1 := by
  have hpairs := pairwise_pruneEach visits held
  generalize pruneEach visits held = turns at hpairs
  induction turns with
  | nil => exact Nat.zero_le 1
  | cons t rest ih =>
    obtain ⟨hlater, hrest⟩ := List.pairwise_cons.1 hpairs
    cases hobtains : t.obtains with
    | false =>
      rw [List.countP_cons_of_neg (by simp [hobtains])]
      exact ih hrest
    | true =>
      have hnone : rest.countP Turn.obtains = 0 := by
        refine List.countP_eq_zero.2 fun u hu => ?_
        simp [Turn.obtains, (hlater u hu hobtains).1]
      exact Nat.le_of_eq (by rw [List.countP_cons_of_pos hobtains, hnone])

/-- A host whose answers stay the same shows as it is in every turn. -/
lemma shown_eq (hsame : ∀ v ∈ visits, v.host = host) (hcurrent : Current host held)
    (h : t ∈ pruneEach visits held) : t.shown = host := by
  have hholding : ∀ held, Current host held → host.holding held = host := by
    intro held hcurrent
    cases held with
    | none => rfl
    | some records =>
      have hrecords : some records = host.modules.toOption := hcurrent.resolve_left (by simp)
      cases hmodules : host.modules with
      | error fault => simp [hmodules, Except.toOption] at hrecords
      | ok list =>
        rw [hmodules] at hrecords
        cases hrecords
        rw [Host.holding, Option.elim_some, ← hmodules]
  induction visits generalizing held with
  | nil => cases h
  | cons v rest ih =>
    obtain ⟨rfl, hrest⟩ := List.forall_mem_cons.1 hsame
    rcases List.mem_cons.1 h with rfl | h
    · exact hholding held hcurrent
    · refine ih hrest ?_ h
      rw [kept_eq, hholding held hcurrent]
      split
      · exact .inr rfl
      · exact hcurrent

/-- Pruning is atomic, whatever the host answers and however its answers change from mapping to
mapping: every mapping is left as it was or keeps exactly the entries that pass alone, with the
facts asked for in turn.  The host is asked for its module list, once, only where judging gets to a
`module_name` and the list is not there yet.  It gives the list once at most and is not asked again
then; where it answers with a fault instead, the mapping is left as it was. -/
theorem pruneEach_prunes (visits : List Visit)
    (hdistinct : ∀ v ∈ visits, Table.Distinct v.entries) :
    (pruneEach visits none).map Turn.toVisit = visits ∧
    (∀ t ∈ pruneEach visits none,
      (∃ left, t.told.outcome = .ok left ∧
        Prunes t.shown t.location t.entries left (Told.facts t.told.events)) ∧
      t.fetches = (if t.seeks && t.held.isNone then 1 else 0) ∧
      (t.fetches ≠ 0 → ∀ fault, t.host.modules = .error fault →
        t.told.outcome = .ok ⟨t.entries, some fault⟩)) ∧
    (pruneEach visits none).countP Turn.obtains ≤ 1 ∧
    ((pruneEach visits none).Pairwise fun t u =>
      t.obtains = true → u.fetches = 0 ∧ u.held = t.host.modules.toOption) ∧
    ∀ host, (∀ v ∈ visits, v.host = host) → ∀ t ∈ pruneEach visits none, t.shown = host := by
  refine ⟨map_toVisit_pruneEach visits none, fun t ht => ⟨?_, fetches_eq ht, ?_⟩,
    countP_obtains_le_one visits none, pairwise_pruneEach visits none, ?_⟩
  · rw [told_eq ht]
    exact prune_prunes (hdistinct _ (toVisit_mem ht)) (current_holding t.host t.held)
  · exact fun hasked fault hmodules => outcome_of_vain ht hasked hmodules
  · exact fun host hsame t ht => shown_eq hsame (.inl rfl) ht

/-- A host with one fact and one module. -/
def furnished : Site where
  values := []
  facts := [(.text "kernel", .text "Linux")]
  modules := .list [.ofTexts [("name", .text "m")]]

/-- The host while its module records cannot be gone through. -/
def unfurnished : Site := { furnished with modules := .int 5 }

/-- A mapping of which one entry stays. -/
def mixed : Entries :=
  [(.text "a", .ofTexts
      [("confine", .ofTexts [("kernel", .text "Linux"), ("module_name", .text "m")])]),
    (.text "b", .ofTexts
      [("confine", .ofTexts [("module_name", .text "n"), ("os", .text "bsd")])])]

/-- A mapping with an entry that cannot be judged. -/
def flawed : Entries :=
  [(.text "c", .ofTexts
      [("confine", .ofTexts [("module_name", .text "m"), ("kernel", .text "bsd")])]),
    (.text "d", .ofTexts [("confine", .list [.text "bsd"])])]

/-- The mappings one after the other; at first the host cannot give its module list. -/
def rounds : List Visit :=
  [⟨unfurnished.toHost, "first", mixed⟩, ⟨furnished.toHost, "first", mixed⟩,
    ⟨furnished.toHost, "second", flawed⟩]

/-- The host is asked in vain, and once more, and then no longer.  The entry that fails stays where
another one cannot be judged. -/
theorem pruneEach_prunes_furnished :
    (∀ v ∈ rounds, Table.Distinct v.entries) ∧
      (pruneEach rounds none).map Turn.fetches = [1, 1, 0] ∧
      (pruneEach rounds none).countP Turn.obtains = 1 ∧
      (pruneEach rounds none).map (fun t => Told.facts t.told.events) =
        [[.text "kernel"], [.text "kernel"], [.text "kernel"]] ∧
      (pruneEach rounds none).map (fun t =>
          t.told.outcome.toOption.map fun left => (left.entries.keys, left.fault)) =
        [some ([.text "a", .text "b"], some .notSequence), some ([.text "a"], none),
          some ([.text "c", .text "d"], some (.badConfinement "second"))] := by
  have hdistinct : ∀ v ∈ rounds, Table.Distinct v.entries := by
    unfold Table.Distinct
    decide +kernel
  obtain ⟨-, -, honce, -⟩ := pruneEach_prunes rounds hdistinct
  have hsome : 0 < (pruneEach rounds none).countP Turn.obtains := by decide +kernel
  exact ⟨hdistinct, rfl, Nat.le_antisymm honce hsome, rfl, rfl⟩

end Confinement

end ProfileCompiler
