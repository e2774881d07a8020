import ProfileCompiler.Proofs.Confinement.Verdict

/-!
# A module list that is there

A host is not asked for its module list where a list is there already, so what it would answer by
then makes no difference.  Judging goes as on a host that gives the list that is there
(`Host.holding`, `Confinement.judge_holding`), and this host always agrees with it
(`Inquiry.current_holding`).  So what is known of judging with a list that the host itself gave
holds whatever list is there.
-/

namespace ProfileCompiler

/-- The host as it shows where a module list is there: it gives this list. -/
def Host.holding (host : Host) (held : Inventory) : Host :=
  { host with modules := held.elim host.modules .ok }

namespace Inquiry

variable {α β : Type} {host : Host} {records : List Value} {x y : Inquiry α} {f g : α → Inquiry β}

lemma current_holding (host : Host) (held : Inventory) : Current (host.holding held) held := by
  cases held with
  | none => exact .inl rfl
  | some records => exact .inr rfl

/-- Two inquiries are the same where a list is there, and they leave it there. -/
structure Agree (records : List Value) (x y : Inquiry α) : Prop where
  same : x (some records) = y (some records)
  kept : (y (some records)).2 = some records

lemma agree_tell (x : Told α) : Agree records (tell x) (tell x) := ⟨rfl, rfl⟩

lemma agree_pure (a : α) : Agree records (pure a : Inquiry α) (pure a) := ⟨rfl, rfl⟩

lemma agree_note (n : Note) : Agree records (note n) (note n) := ⟨rfl, rfl⟩

lemma agree_fact (held : Inventory) (name : Scalar) :
    Agree records (fact host name) (fact (host.holding held) name) := ⟨rfl, rfl⟩

lemma agree_modules (host host' : Host) : Agree records (modules host) (modules host') :=
  ⟨rfl, rfl⟩

lemma Agree.bind (hx : Agree records x y) (hf : ∀ a, Agree records (f a) (g a)) :
    Agree records (x >>= f) (y >>= g) := by
  have hsame : ∀ a, f a (y (some records)).2 = g a (y (some records)).2 := fun a => by
    rw [hx.kept]
    exact (hf a).same
  constructor
  · show andThen x f (some records) = andThen y g (some records)
    unfold andThen
    rw [hx.same]
    cases houtcome : (y (some records)).1.outcome with
    | error fault => simp only [houtcome]
    | ok a => simp only [houtcome, hsame]
  · cases houtcome : (y (some records)).1.outcome with
    | error fault => rw [(bind_of_error houtcome g).2, hx.kept]
    | ok a => rw [(bind_of_ok houtcome g).2, hx.kept, (hf a).kept]

end Inquiry

namespace Confinement

open Inquiry

variable {host : Host} {records : List Value}

lemma agree_moduleApplies (host host' : Host) (name : Value) (required : Option Value) :
    Agree records (moduleApplies host name required) (moduleApplies host' name required) := by
  unfold moduleApplies
  refine (agree_modules host host').bind fun records => (agree_tell _).bind fun found => ?_
  split
  · exact agree_pure false
  · split
    · exact agree_pure true
    · split
      · exact agree_pure true
      · split
        · exact agree_pure _
        · split
          · exact (agree_note _).bind fun _ => agree_pure false
          · exact agree_tell _

lemma agree_holds (held : Inventory) (confine : Entries) (key : Scalar) (expected : Value) :
    Agree records (holds host confine key expected)
      (holds (host.holding held) confine key expected) := by
  unfold holds
  split
  · exact agree_moduleApplies _ _ _ _
  · split
    · exact agree_pure true
    · exact (agree_fact held key).bind fun _ => agree_pure _

lemma agree_allHold (held : Inventory) (confine : Entries) (conditions : List (Scalar × Value)) :
    Agree records (allHold host confine conditions)
      (allHold (host.holding held) confine conditions) := by
  induction conditions with
  | nil => exact agree_pure true
  | cons condition rest ih =>
    unfold allHold
    refine (agree_holds held confine _ _).bind fun holds => ?_
    cases holds with
    | true => exact ih
    | false => exact agree_pure false

lemma agree_applies (held : Inventory) (location : String) (name : Scalar) (body : Value) :
    Agree records (applies host location name body)
      (applies (host.holding held) location name body) := by
  unfold applies
  split
  · split
    · exact agree_pure true
    · split
      · exact agree_pure true
      · split
        · exact agree_allHold held _ _
        · split
          · exact (agree_note _).bind fun _ => agree_pure true
          · exact agree_tell _
  · exact agree_pure true

lemma agree_judge (held : Inventory) (location : String) (entries : List (Scalar × Value)) :
    Agree records (judge host location entries)
      (judge (host.holding held) location entries) := by
  induction entries with
  | nil => exact agree_pure []
  | cons e rest ih =>
    unfold judge
    exact (agree_applies held location _ _).bind fun _ => ih.bind fun _ => agree_pure _

/-- With a list that is there judging goes as on a host that gives this list. -/
theorem judge_holding (host : Host) (held : Inventory) (location : String) (entries : Entries) :
    judge host location entries held = judge (host.holding held) location entries held := by
  cases held with
  | none => rfl
  | some records => exact (agree_judge (some records) location entries).same

end Confinement

end ProfileCompiler
