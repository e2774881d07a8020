import Mathlib.Tactic.Common
import ProfileCompiler.CheckIndex

/-!
# Registered checks

Which entries of a catalog are parameter checks, and what they say, put down as conditions on the
entry (`Specification.registered?`).  Reading an entry field by field, with complaints where a
field is wrong, comes to the same (`CheckIndex.toOption_of_classify`).
-/

namespace ProfileCompiler

/-! ## Readings without their complaints -/

namespace Reading

variable {α β : Type}

lemma toOption_map (x : Reading α) (f : α → β) : (x.map f).toOption = x.toOption.map f := by
  cases x <;> rfl

lemma toOption_mapError {ε : Type} (x : Reading α) (f : List Complaint → ε) :
    (x.mapError f).toOption = x.toOption := by
  cases x <;> rfl

lemma toOption_both (x : Reading α) (y : Reading β) :
    (both x y).toOption = x.toOption.bind fun a => y.toOption.map fun b => (a, b) := by
  cases x <;> cases y <;> rfl

lemma toOption_under (name : String) (x : Reading α) : (under name x).toOption = x.toOption := by
  cases x <;> rfl

lemma toOption_text (v : Value) : (text v).toOption = v.text? := by
  unfold text
  cases v.text? <;> rfl

lemma toOption_required (name : String) (read : Value → Reading α) (fields : Entries) :
    (required name read fields).toOption =
      (fields.get? (.text name)).bind fun v => (read v).toOption := by
  unfold required
  cases fields.get? (.text name) with
  | none => rfl
  | some v => exact toOption_under name (read v)

/-- A field that may be absent or null is read like a null where it is absent. -/
lemma toOption_defaulted (name : String) (read : Value → Reading α) (fields : Entries) :
    (defaulted name none (Specification.optional read) fields).toOption =
      (Specification.optional read ((fields.get? (.text name)).getD .null)).toOption := by
  unfold defaulted
  cases fields.get? (.text name) with
  | none => rfl
  | some v => exact toOption_under name _

lemma itemsFrom_ok (index : Nat) (items : List Value) : itemsFrom .ok index items = .ok items := by
  induction items generalizing index with
  | nil => rfl
  | cons v rest ih =>
    unfold itemsFrom
    rw [ih]
    rfl

end Reading

/-! ## Fields -/

lemma Scalar.eq_text_of_text? {k : Scalar} {s : String} (h : k.text? = some s) : k = .text s := by
  cases k <;> cases h
  rfl

namespace Value

/-- The entries of a mapping whose keys are texts. -/
def textEntries? (v : Value) : Option Entries :=
  v.entries?.filter fun entries => entries.all fun e => e.1.text?.isSome

/-- What a value is read as, or nothing where it is null. -/
def orNull? {α : Type} (read : Value → Option α) (v : Value) : Option (Option α) :=
  if v.isNull then some none else (read v).map some

end Value

namespace Reading

lemma toOption_mapping (v : Value) : (mapping v).toOption = v.textEntries? := by
  unfold mapping Value.textEntries?
  cases v.entries? with
  | none => rfl
  | some entries =>
    have hodd : (entries.all fun e => e.1.text?.isSome) =
        (entries.filter fun e => e.1.text?.isNone).isEmpty := by
      rw [Bool.eq_iff_iff, List.all_eq_true, List.isEmpty_iff, List.filter_eq_nil_iff]
      simp [Option.isSome_iff_ne_none]
    simp only [Option.filter_some, hodd]
    cases entries.filter fun e => e.1.text?.isNone <;> rfl

lemma toOption_list (v : Value) : (list .ok v).toOption = v.items? := by
  unfold list
  cases v.items? with
  | none => rfl
  | some items =>
    simp only [itemsFrom_ok]
    rfl

lemma toOption_optional {α : Type} (read : Value → Reading α) (v : Value) :
    (Specification.optional read v).toOption = v.orNull? fun v => (read v).toOption := by
  unfold Specification.optional Value.orNull?
  split
  · rfl
  · exact toOption_map _ _

end Reading

namespace Specification

/-- The types of checks that set a parameter. -/
def isParameterType (checkType : String) : Bool :=
  checkType == "puppet" || checkType == "puppet-class-parameter"

/-- The specification that a catalog entry registers: a mapping under a text, of one of the types
that set a parameter, with a mapping of settings that has a text as parameter and a value, with
controls that are null or a mapping with texts as keys, and with configuration elements that are
null or a list. -/
def registered? (name : Scalar) (body : Value) : Option Specification := do
  let name ← name.text?
  let entries ← body.entries?
  let checkType ← ((entries.get? (.text "type")).bind Value.text?).filter isParameterType
  let settings ← (entries.get? (.text "settings")).bind Value.entries?
  let parameter ← (settings.get? (.text "parameter")).bind Value.text?
  let value ← settings.get? (.text "value")
  let controls ← ((entries.get? (.text "controls")).getD .null).orNull? Value.textEntries?
  let ces ← ((entries.get? (.text "ces")).getD .null).orNull? Value.items?
  return {
    name := name, checkType := checkType, parameter := parameter, value := value,
    controls := controls, ces := ces,
    identifiers := firstOf ["identifiers"] entries,
    ovalIds := firstOf ["oval-ids", "oval_ids"] entries }

/-- Names that are the same register the same specification. -/
lemma registered?_congr {k k' : Scalar} (h : (k == k') = true) (body : Value) :
    registered? k body = registered? k' body := by
  have htext : k.text? = k'.text? := by
    cases hk : k.text? with
    | some s =>
      rw [Scalar.eq_text_of_text? hk] at h
      rw [Scalar.eq_text_of_beq (BEq.symm h)]
      rfl
    | none =>
      cases hk' : k'.text? with
      | none => rfl
      | some s =>
        rw [Scalar.eq_text_of_text? hk'] at h
        rw [Scalar.eq_text_of_beq h] at hk
        cases hk
  unfold registered?
  rw [htext]

/-- A specification has the name under which it is registered. -/
lemma eq_of_registered? {k : Scalar} {body : Value} {s : Specification}
    (h : registered? k body = some s) : k = .text s.name := by
  unfold registered? at h
  simp only [bind, pure, Option.bind_eq_some_iff, Option.some.injEq] at h
  obtain ⟨name, hname, _, -, _, -, _, -, _, -, _, -, _, -, _, -, rfl⟩ := h
  exact Scalar.eq_text_of_text? hname

lemma toOption_settings (v : Value) :
    (settings v).toOption = v.entries?.bind fun entries =>
      ((entries.get? (.text "parameter")).bind Value.text?).map fun parameter =>
        (parameter, (entries.get? (.text "value")).getD .null) := by
  unfold settings
  cases v.entries? with
  | none => rfl
  | some entries =>
    simp only [Reading.toOption_map, Reading.toOption_required, Reading.toOption_text]
    rfl

/-- What reading a check gives, field by field. -/
lemma toOption_ofCheck (name : Scalar) (entries : Entries) :
    (ofCheck (.scalar name) entries).toOption = do
      let name ← name.text?
      let checkType ← (entries.get? (.text "type")).bind Value.text?
      let settings ← (entries.get? (.text "settings")).bind Value.entries?
      let parameter ← (settings.get? (.text "parameter")).bind Value.text?
      let controls ← ((entries.get? (.text "controls")).getD .null).orNull? Value.textEntries?
      let ces ← ((entries.get? (.text "ces")).getD .null).orNull? Value.items?
      return {
        name := name, checkType := checkType, parameter := parameter,
        value := (settings.get? (.text "value")).getD .null,
        controls := controls, ces := ces,
        identifiers := firstOf ["identifiers"] entries,
        ovalIds := firstOf ["oval-ids", "oval_ids"] entries } := by
  have hname : (Value.scalar name).text? = name.text? := by cases name <;> rfl
  unfold ofCheck
  simp only [Reading.toOption_map, Reading.toOption_both, Reading.toOption_under,
    Reading.toOption_text, Reading.toOption_required, Reading.toOption_defaulted,
    Reading.toOption_optional, Reading.toOption_mapping, Reading.toOption_list, toOption_settings,
    hname]
  -- What is left is the same sequence of fields in another bracketing.
  simp only [bind, pure, Option.map_eq_bind, Option.bind_assoc, Option.bind_some,
    Function.comp_def]

end Specification

namespace CheckIndex

lemma any_parameterTypes (v : Value) :
    (parameterTypes.any fun t => t == v) = v.text?.any Specification.isParameterType := by
  unfold parameterTypes
  cases v with
  | list items => rfl
  | mapping entries => rfl
  | scalar s =>
    have hsame : ∀ t, (Value.text t == .scalar s) = (Scalar.text t == s) := fun t => by
      rw [Value.beq_eq_same, Value.text, Value.same]
    simp only [List.any_cons, List.any_nil, hsame]
    cases s with
    | text u =>
      simp only [Scalar.text_beq_text, Bool.or_false]
      rw [BEq.comm, BEq.comm (a := "puppet-class-parameter")]
      rfl
    | null => rfl
    | bool b => rfl
    | int n => rfl
    | float x => rfl

/-- An entry that is no faulty check is registered if it is classified as a specification. -/
theorem toOption_of_classify {name : Scalar} {body : Value}
    {entry : Except SkippedCheck Specification} (h : classify name body = .ok entry) :
    entry.toOption = Specification.registered? name body := by
  unfold Specification.registered?
  cases body with
  | scalar s =>
    cases h
    cases name.text? <;> rfl
  | list items =>
    cases h
    cases name.text? <;> rfl
  | mapping entries =>
    have htype : ((Table.get? (.text "type") entries).getD .null).text? =
        (Table.get? (.text "type") entries).bind Value.text? := by
      cases Table.get? (.text "type") entries <;> rfl
    -- Both readings test the type, the settings and the parameter, in this order.
    unfold classify at h
    simp only [any_parameterTypes, htype] at h
    simp only [Value.entries?, bind, Option.bind_some]
    cases hcheckType : (Table.get? (.text "type") entries).bind Value.text? with
    | none =>
      rw [hcheckType] at h
      cases h
      simp [Except.toOption]
    | some checkType =>
      rw [hcheckType, Option.any_some] at h
      rw [Option.filter_some]
      by_cases hpuppet : Specification.isParameterType checkType = true
      · rw [if_pos hpuppet]
        simp only [hpuppet, Bool.not_true, Bool.false_eq_true, if_false] at h
        split at h
        · rename_i settings hsettings
          simp only [hsettings, Option.bind_some]
          split at h
          · rename_i hparameter
            cases h
            simp [Except.toOption, hparameter, Value.entries?]
          · rename_i parameter hparameter
            -- A parameter without a value is a fault and leaves no entry to classify.
            by_cases hhas : Table.has (.text "value") settings = true
            · obtain ⟨value, hvalue⟩ := Option.isSome_iff_exists.1 hhas
              rw [if_pos hhas] at h
              cases h
              rw [Reading.toOption_mapError, Specification.toOption_ofCheck]
              simp [hcheckType, hsettings, hparameter, hvalue, Value.entries?]
            · rw [if_neg hhas] at h
              cases h
        · rename_i hsettings
          cases h
          simp [Value.bind_entries?_of_not_mapping hsettings, Except.toOption]
      · rw [if_neg hpuppet]
        simp only [hpuppet, Bool.not_false, if_true] at h
        cases h
        simp [Except.toOption]

end CheckIndex

end ProfileCompiler
