import Mathlib.Tactic.Common
import ProfileCompiler.Confinement

/-!
# Entries judged alone

The entries of a section are judged one after the other, and the module list that was fetched for
one of them is kept for the next.  This cannot be seen in the verdicts: whether the list is there
already or has to be fetched, an inquiry comes to the same (`Inquiry.Repeatable`).  So the outcome
of inquiries in turn is the outcome of each of them made alone (`Inquiry.alone_bind`), and the
entries of a section that apply are those that pass when they are judged alone
(`Confinement.alone_apply_eq_ok_iff`).
-/

namespace ProfileCompiler

/-! ## Inquiries in turn -/

namespace Inquiry

variable {α β : Type}

lemma bind_of_ok {x : Inquiry α} {inventory : Inventory} {a : α}
    (h : (x inventory).1.outcome = .ok a) (f : α → Inquiry β) :
    ((x >>= f) inventory).1.outcome = (f a (x inventory).2).1.outcome ∧
      ((x >>= f) inventory).2 = (f a (x inventory).2).2 := by
  show (andThen x f inventory).1.outcome = _ ∧ (andThen x f inventory).2 = _
  unfold andThen
  simp [h]

lemma bind_of_error {x : Inquiry α} {inventory : Inventory} {fault : Fault}
    (h : (x inventory).1.outcome = .error fault) (f : α → Inquiry β) :
    ((x >>= f) inventory).1.outcome = .error fault ∧
      ((x >>= f) inventory).2 = (x inventory).2 := by
  show (andThen x f inventory).1.outcome = _ ∧ (andThen x f inventory).2 = _
  unfold andThen
  simp [h]

/-- Inquiries in turn that succeed are a success of each. -/
lemma of_bind_ok {x : Inquiry α} {f : α → Inquiry β} {inventory : Inventory} {b : β}
    (h : ((x >>= f) inventory).1.outcome = .ok b) :
    ∃ a, (x inventory).1.outcome = .ok a ∧ (f a (x inventory).2).1.outcome = .ok b := by
  cases hx : (x inventory).1.outcome with
  | ok a => exact ⟨a, rfl, (bind_of_ok hx f).1.symm.trans h⟩
  | error fault => cases (bind_of_error hx f).1.symm.trans h

end Inquiry

/-! ## Inquiries made alone -/

namespace Inquiry

variable {α β : Type} {host : Host} {x : Inquiry α} {f : α → Inquiry β}

/-- The module list has not been fetched, or it is the one that the host gives. -/
def Current (host : Host) (inventory : Inventory) : Prop :=
  inventory = none ∨ inventory = host.modules.toOption

/-- What an inquiry comes to if nothing has been fetched before. -/
def alone (x : Inquiry α) : Except Fault α := (x none).1.outcome

/-- An inquiry comes to the same whether or not the module list was fetched before it, and leaves
no other list. -/
def Repeatable (host : Host) (x : Inquiry α) : Prop :=
  ∀ inventory, Current host inventory →
    (x inventory).1.outcome = x.alone ∧ Current host (x inventory).2

@[simp] lemma alone_pure (a : α) : (pure a : Inquiry α).alone = .ok a := rfl

lemma repeatable_tell (host : Host) (x : Told α) : Repeatable host (tell x) :=
  fun _ hcurrent => ⟨rfl, hcurrent⟩

lemma repeatable_note (host : Host) (n : Note) : Repeatable host (note n) :=
  repeatable_tell host _

lemma repeatable_pure (host : Host) (a : α) : Repeatable host (pure a : Inquiry α) :=
  fun _ hcurrent => ⟨rfl, hcurrent⟩

lemma repeatable_fact (host : Host) (name : Scalar) : Repeatable host (fact host name) :=
  fun _ hcurrent => ⟨rfl, hcurrent⟩

lemma repeatable_modules (host : Host) : Repeatable host (modules host) := by
  intro inventory hcurrent
  cases inventory with
  | none => exact ⟨rfl, Or.inr rfl⟩
  | some records =>
    -- What was fetched before is what the host would answer now.
    have hrecords : some records = host.modules.toOption := hcurrent.resolve_left (by simp)
    refine ⟨?_, hcurrent⟩
    cases hmodules : host.modules with
    | error fault =>
      rw [hmodules] at hrecords
      cases hrecords
    | ok list =>
      rw [hmodules] at hrecords
      cases hrecords
      exact hmodules.symm

lemma Repeatable.attempt (hx : Repeatable host x) : Repeatable host (attempt x) := by
  intro inventory hcurrent
  obtain ⟨houtcome, hafter⟩ := hx inventory hcurrent
  exact ⟨congrArg Except.ok houtcome, hafter⟩

/-- Repeatable inquiries in turn come to what each of them comes to alone. -/
lemma outcome_bind (hx : Repeatable host x) (hf : ∀ a, Repeatable host (f a))
    {inventory : Inventory} (hcurrent : Current host inventory) :
    ((x >>= f) inventory).1.outcome = (x.alone >>= fun a => (f a).alone) ∧
      Current host ((x >>= f) inventory).2 := by
  obtain ⟨houtcome, hafter⟩ := hx inventory hcurrent
  cases halone : x.alone with
  | ok a =>
    obtain ⟨hbind, hinventory⟩ := bind_of_ok (houtcome.trans halone) f
    obtain ⟨hnext, hlast⟩ := hf a _ hafter
    rw [hbind, hinventory, hnext]
    exact ⟨rfl, hlast⟩
  | error fault =>
    obtain ⟨hbind, hinventory⟩ := bind_of_error (houtcome.trans halone) f
    rw [hbind, hinventory]
    exact ⟨rfl, hafter⟩

lemma alone_bind (hx : Repeatable host x) (hf : ∀ a, Repeatable host (f a)) :
    (x >>= f).alone = x.alone >>= fun a => (f a).alone :=
  (outcome_bind hx hf (Or.inl rfl)).1

/-- Repeatable inquiries in turn succeed if each of them does alone. -/
lemma alone_bind_eq_ok_iff (hx : Repeatable host x) (hf : ∀ a, Repeatable host (f a)) {b : β} :
    (x >>= f).alone = .ok b ↔ ∃ a, x.alone = .ok a ∧ (f a).alone = .ok b := by
  rw [alone_bind hx hf]
  cases hfirst : x.alone with
  | ok a =>
    show (f a).alone = _ ↔ _
    simp
  | error fault =>
    refine iff_of_false nofun ?_
    rintro ⟨a, ha, -⟩
    cases ha

lemma Repeatable.bind (hx : Repeatable host x) (hf : ∀ a, Repeatable host (f a)) :
    Repeatable host (x >>= f) := by
  intro inventory hcurrent
  rw [alone_bind hx hf]
  exact outcome_bind hx hf hcurrent

end Inquiry

/-! ## Judging -/

namespace Confinement

open Inquiry

variable {host : Host}

lemma repeatable_moduleApplies (host : Host) (name : Value) (required : Option Value) :
    Repeatable host (moduleApplies host name required) := by
  unfold moduleApplies
  refine (repeatable_modules host).bind fun records => ?_
  refine (repeatable_tell host _).bind fun found => ?_
  split
  · exact repeatable_pure host false
  · split
    · exact repeatable_pure host true
    · split
      · exact repeatable_pure host true
      · split
        · exact repeatable_pure host _
        · split
          · exact (repeatable_note host _).bind fun _ => repeatable_pure host false
          · exact repeatable_tell host _

lemma repeatable_holds (host : Host) (confine : Entries) (key : Scalar) (expected : Value) :
    Repeatable host (holds host confine key expected) := by
  unfold holds
  split
  · exact repeatable_moduleApplies host _ _
  · split
    · exact repeatable_pure host true
    · exact (repeatable_fact host key).bind fun _ => repeatable_pure host _

lemma repeatable_allHold (host : Host) (confine : Entries) (conditions : List (Scalar × Value)) :
    Repeatable host (allHold host confine conditions) := by
  induction conditions with
  | nil => exact repeatable_pure host true
  | cons condition rest ih =>
    unfold allHold
    refine (repeatable_holds host confine _ _).bind fun held => ?_
    split
    · exact ih
    · exact repeatable_pure host false

lemma repeatable_applies (host : Host) (location : String) (name : Scalar) (body : Value) :
    Repeatable host (applies host location name body) := by
  unfold applies
  split
  · split
    · exact repeatable_pure host true
    · split
      · exact repeatable_pure host true
      · split
        · exact repeatable_allHold host _ _
        · split
          · exact (repeatable_note host _).bind fun _ => repeatable_pure host true
          · exact repeatable_tell host _
  · exact repeatable_pure host true

lemma repeatable_judge (host : Host) (location : String) (entries : List (Scalar × Value)) :
    Repeatable host (judge host location entries) := by
  induction entries with
  | nil => exact repeatable_pure host []
  | cons e rest ih =>
    unfold judge
    exact (repeatable_applies host location _ _).bind fun _ =>
      ih.bind fun _ => repeatable_pure host _

lemma repeatable_noteRejected (host : Host) (location : String) (names : List Scalar) :
    Repeatable host (noteRejected location names) := by
  induction names with
  | nil => exact repeatable_pure host ()
  | cons name rest ih =>
    unfold noteRejected
    exact (repeatable_tell host _).bind fun _ => ih

lemma repeatable_apply (host : Host) (location : String) (entries : Entries) :
    Repeatable host (apply host location entries) := by
  unfold apply
  exact (repeatable_judge host location entries).bind fun _ =>
    (repeatable_noteRejected host location _).bind fun _ => repeatable_pure host _

/-- An entry can be judged: judging it alone does not end in a fault. -/
def Judged (host : Host) (location : String) (e : Scalar × Value) : Prop :=
  ∃ verdict, (applies host location e.1 e.2).alone = .ok verdict

/-- Whether an entry passes its confinement if it is judged alone. -/
def passes (host : Host) (location : String) (e : Scalar × Value) : Bool :=
  match (applies host location e.1 e.2).alone with
  | .ok verdict => verdict
  | .error _ => false

lemma passes_of_alone {location : String} {e : Scalar × Value} {verdict : Bool}
    (h : (applies host location e.1 e.2).alone = .ok verdict) :
    passes host location e = verdict := by
  unfold passes
  rw [h]

lemma alone_noteRejected (host : Host) (location : String) (names : List Scalar) :
    (noteRejected location names).alone = .ok () := by
  induction names with
  | nil => rfl
  | cons name rest ih =>
    unfold noteRejected
    rw [alone_bind (repeatable_note host _) fun _ => repeatable_noteRejected host location rest, ih]
    rfl

/-- Entries can be judged together if each of them can, with the verdicts that each has alone. -/
lemma alone_judge_eq_ok_iff {location : String} {entries : List (Scalar × Value)}
    {verdicts : List Bool} :
    (judge host location entries).alone = .ok verdicts ↔
      (∀ e ∈ entries, Judged host location e) ∧ verdicts = entries.map (passes host location) := by
  induction entries generalizing verdicts with
  | nil =>
    unfold judge
    simp [eq_comm]
  | cons e rest ih =>
    have hrest : ∀ verdict, Repeatable host
        (judge host location rest >>= fun more => (pure (verdict :: more) : Inquiry _)) :=
      fun _ => (repeatable_judge host location rest).bind fun _ => repeatable_pure host _
    unfold judge
    simp only [alone_bind_eq_ok_iff (repeatable_applies host location _ _) hrest,
      alone_bind_eq_ok_iff (repeatable_judge host location rest) fun _ => repeatable_pure host _,
      ih, alone_pure, List.forall_mem_cons, List.map_cons]
    constructor
    · rintro ⟨verdict, hone, -, ⟨hjudged, rfl⟩, hverdicts⟩
      rw [passes_of_alone hone]
      exact ⟨⟨⟨verdict, hone⟩, hjudged⟩, (Except.ok.inj hverdicts).symm⟩
    · rintro ⟨⟨⟨verdict, hone⟩, hjudged⟩, rfl⟩
      rw [passes_of_alone hone]
      exact ⟨verdict, hone, _, ⟨hjudged, rfl⟩, rfl⟩

lemma withVerdict_map (wanted : Bool) (entries : Entries) (pass : Scalar × Value → Bool) :
    withVerdict wanted entries (entries.map pass) = entries.filter fun e => pass e == wanted := by
  unfold withVerdict
  induction entries with
  | nil => rfl
  | cons e rest ih =>
    rw [List.map_cons, List.zip_cons_cons, List.filter_cons, List.filter_cons]
    by_cases h : (pass e == wanted) = true
    · simpa [h] using ih
    · simpa [h] using ih

lemma withVerdict_true_map (entries : Entries) (pass : Scalar × Value → Bool) :
    withVerdict true entries (entries.map pass) = entries.filter pass := by
  rw [withVerdict_map]
  simp

/-- The entries that apply are those that pass when they are judged alone, in order, and there is
a fault if one of them cannot be judged. -/
theorem alone_apply_eq_ok_iff {location : String} {entries kept : Entries} :
    (apply host location entries).alone = .ok kept ↔
      (∀ e ∈ entries, Judged host location e) ∧ kept = entries.filter (passes host location) := by
  have hnotes : ∀ verdicts, Repeatable host
      (noteRejected location (withVerdict false entries verdicts).keys >>= fun _ =>
        (pure (withVerdict true entries verdicts) : Inquiry _)) :=
    fun _ => (repeatable_noteRejected host location _).bind fun _ => repeatable_pure host _
  unfold apply
  simp only [alone_bind_eq_ok_iff (repeatable_judge host location entries) hnotes,
    alone_bind_eq_ok_iff (repeatable_noteRejected host location _) fun _ => repeatable_pure host _,
    alone_judge_eq_ok_iff, alone_pure]
  constructor
  · rintro ⟨verdicts, ⟨hjudged, rfl⟩, -, -, hkept⟩
    rw [withVerdict_true_map] at hkept
    exact ⟨hjudged, (Except.ok.inj hkept).symm⟩
  · rintro ⟨hjudged, rfl⟩
    exact ⟨_, ⟨hjudged, rfl⟩, (), alone_noteRejected host location _, by rw [withVerdict_true_map]⟩

end Confinement

end ProfileCompiler
