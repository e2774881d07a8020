import ProfileCompiler.Fingerprint
import ProfileCompiler.Proofs.Text.Numeral
import ProfileCompiler.Proofs.Value.Sameness
import ProfileCompiler.Value.Printer

/-!
# What can be written

A value is written plainly, in quotation marks, or as JSON.  All three ways fail on the same values:
those that hold an integer with too many digits, however deep, also as a key
(`Value.quoted?_eq_none_iff`, `Value.plain?_eq_none_iff`, `Json.write?_eq_none_iff`).  Such integers
cannot be read from decimal digits either, but a document may write them in another base.

So a list of profiles has a fingerprint unless one of its items holds such an integer
(`Fingerprint.ofList?_eq_none_iff`).
-/

namespace ProfileCompiler

/-! ## Values with integers that are too long -/

/-- An integer with too many digits. -/
def Scalar.IsOverlong : Scalar → Prop
  | .int n => Text.digitLimit < (Nat.toDigits 10 n.natAbs).length
  | _ => False

/-- An integer with too many digits is the value itself, or stands in it. -/
inductive Value.HoldsOverlong : Value → Prop
  | here {s : Scalar} (h : s.IsOverlong) : HoldsOverlong (.scalar s)
  | item {items : List Value} {v : Value} (hmem : v ∈ items) (h : HoldsOverlong v) :
    HoldsOverlong (.list items)
  | key {entries : Entries} {e : Scalar × Value} (hmem : e ∈ entries) (h : e.1.IsOverlong) :
    HoldsOverlong (.mapping entries)
  | value {entries : Entries} {e : Scalar × Value} (hmem : e ∈ entries) (h : HoldsOverlong e.2) :
    HoldsOverlong (.mapping entries)

namespace Value

lemma holdsOverlong_scalar {s : Scalar} : HoldsOverlong (.scalar s) ↔ s.IsOverlong :=
  ⟨fun | .here h => h, .here⟩

lemma holdsOverlong_list {items : List Value} :
    HoldsOverlong (.list items) ↔ ∃ v ∈ items, v.HoldsOverlong :=
  ⟨fun | .item hmem h => ⟨_, hmem, h⟩, fun ⟨_, hmem, h⟩ => .item hmem h⟩

lemma holdsOverlong_mapping {entries : Entries} :
    HoldsOverlong (.mapping entries) ↔
      ∃ e ∈ entries, e.1.IsOverlong ∨ e.2.HoldsOverlong := by
  constructor
  · intro h
    cases h with
    | key hmem h => exact ⟨_, hmem, .inl h⟩
    | value hmem h => exact ⟨_, hmem, .inr h⟩
  · rintro ⟨e, hmem, h | h⟩
    · exact .key hmem h
    · exact .value hmem h

end Value

/-! ## Parts in turn -/

/-- A sequence of two attempts fails if one of them does. -/
private lemma bind_bind_eq_none_iff {α β γ : Type} {x : Option α} {y : Option β} {f : α → β → γ} :
    (x.bind fun a => y.bind fun b => some (f a b)) = none ↔ x = none ∨ y = none := by
  cases x <;> cases y <;> simp

/-- A sequence of three attempts fails if one of them does. -/
private lemma bind_bind_bind_eq_none_iff {α β γ δ : Type} {x : Option α} {y : Option β}
    {z : Option γ} {f : α → β → γ → δ} :
    (x.bind fun a => y.bind fun b => z.bind fun c => some (f a b c)) = none ↔
      (x = none ∨ y = none) ∨ z = none := by
  cases x <;> cases y <;> cases z <;> simp

/-! ## Quoted and plain forms -/

namespace Scalar

lemma quoted?_eq_none_iff {s : Scalar} : s.quoted? = none ↔ s.IsOverlong := by
  cases s with
  | int n => exact Text.decimal?_eq_none_iff
  | bool b => cases b <;> simp [quoted?, IsOverlong]
  | _ => simp [quoted?, IsOverlong]

lemma plain?_eq_none_iff {s : Scalar} : s.plain? = none ↔ s.IsOverlong := by
  cases s with
  | text s => simp [plain?, IsOverlong]
  | null => exact quoted?_eq_none_iff (s := .null)
  | bool b => exact quoted?_eq_none_iff (s := .bool b)
  | int n => exact quoted?_eq_none_iff (s := .int n)
  | float x => exact quoted?_eq_none_iff (s := .float x)

end Scalar

namespace Value

lemma quotedItems?_eq_none_iff {items : List Value} :
    quotedItems? items = none ↔ ∃ v ∈ items, v.quoted? = none := by
  induction items with
  | nil => simp [quotedItems?]
  | cons v items ih =>
    rw [quotedItems?]
    exact bind_bind_eq_none_iff.trans (by rw [ih]; simp)

lemma quotedEntries?_eq_none_iff {entries : List (Scalar × Value)} :
    quotedEntries? entries = none ↔ ∃ e ∈ entries, e.1.quoted? = none ∨ e.2.quoted? = none := by
  induction entries with
  | nil => simp [quotedEntries?]
  | cons e entries ih =>
    rw [quotedEntries?]
    exact bind_bind_bind_eq_none_iff.trans (by rw [ih]; simp)

/-- A value has no quoted form if it holds an integer with too many digits. -/
theorem quoted?_eq_none_iff {v : Value} : v.quoted? = none ↔ v.HoldsOverlong := by
  induction v using inductionOnMembers with
  | scalar s => rw [quoted?, Scalar.quoted?_eq_none_iff, holdsOverlong_scalar]
  | list items ih =>
    rw [quoted?, Option.map_eq_none_iff, quotedItems?_eq_none_iff, holdsOverlong_list]
    exact exists_congr fun v => and_congr_right fun hv => ih v hv
  | mapping entries ih =>
    rw [quoted?, Option.map_eq_none_iff, quotedEntries?_eq_none_iff, holdsOverlong_mapping]
    exact exists_congr fun e => and_congr_right fun he =>
      or_congr Scalar.quoted?_eq_none_iff (ih e he)

/-- A value has no plain form if it holds an integer with too many digits. -/
theorem plain?_eq_none_iff {v : Value} : v.plain? = none ↔ v.HoldsOverlong := by
  cases v with
  | scalar s => rw [plain?, Scalar.plain?_eq_none_iff, holdsOverlong_scalar]
  | list items => exact quoted?_eq_none_iff
  | mapping entries => exact quoted?_eq_none_iff

end Value

/-! ## JSON and fingerprints -/

namespace Json

lemma scalarText?_eq_none_iff {s : Scalar} : scalarText? s = none ↔ s.IsOverlong := by
  cases s with
  | int n =>
    rw [scalarText?, Option.map_eq_none_iff]
    exact Text.decimal?_eq_none_iff
  | bool b => cases b <;> simp [scalarText?, Scalar.IsOverlong]
  | _ => simp [scalarText?, Scalar.IsOverlong]

lemma writeScalar?_eq_none_iff {s : Scalar} : writeScalar? s = none ↔ s.IsOverlong := by
  cases s with
  | text s => simp [writeScalar?, Scalar.IsOverlong]
  | null => exact scalarText?_eq_none_iff (s := .null)
  | bool b => exact scalarText?_eq_none_iff (s := .bool b)
  | int n => exact scalarText?_eq_none_iff (s := .int n)
  | float x => exact scalarText?_eq_none_iff (s := .float x)

lemma writeItems?_eq_none_iff {items : List Value} :
    writeItems? items = none ↔ ∃ v ∈ items, write? v = none := by
  induction items with
  | nil => simp [writeItems?]
  | cons v items ih =>
    rw [writeItems?]
    exact bind_bind_eq_none_iff.trans (by rw [ih]; simp)

lemma writeMembers?_eq_none_iff {entries : List (Scalar × Value)} :
    writeMembers? entries = none ↔
      ∃ e ∈ entries, scalarText? e.1 = none ∨ write? e.2 = none := by
  induction entries with
  | nil => simp [writeMembers?]
  | cons e entries ih =>
    rw [writeMembers?]
    exact bind_bind_bind_eq_none_iff.trans (by rw [ih]; simp)

/-- A value cannot be written if it holds an integer with too many digits. -/
theorem write?_eq_none_iff {v : Value} : write? v = none ↔ v.HoldsOverlong := by
  induction v using Value.inductionOnMembers with
  | scalar s => rw [write?, writeScalar?_eq_none_iff, Value.holdsOverlong_scalar]
  | list items ih =>
    rw [write?, Option.map_eq_none_iff, writeItems?_eq_none_iff, Value.holdsOverlong_list]
    exact exists_congr fun v => and_congr_right fun hv => ih v hv
  | mapping entries ih =>
    rw [write?, Option.map_eq_none_iff, writeMembers?_eq_none_iff, Value.holdsOverlong_mapping]
    exact exists_congr fun e => and_congr_right fun he =>
      or_congr scalarText?_eq_none_iff (ih e he)

end Json

/-- A list has no fingerprint if one of its items holds an integer with too many digits. -/
theorem Fingerprint.ofList?_eq_none_iff {profiles : List Value} :
    ofList? profiles = none ↔ ∃ p ∈ profiles, p.HoldsOverlong := by
  rw [ofList?, Option.map_eq_none_iff, source?, Json.write?_eq_none_iff, Value.holdsOverlong_list]

end ProfileCompiler
