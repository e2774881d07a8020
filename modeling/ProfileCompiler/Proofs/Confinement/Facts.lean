import ProfileCompiler.Proofs.Confinement.Conditions
import ProfileCompiler.Proofs.Text.Pieces

/-!
# Facts and what is expected of them

A site has a fact under its own name, or else under a dotted name that leads to it through nested
facts (`Site.Names`).  A text that names no fact has the value null, and any other key that names
none is no name at all (`Site.fact_of_names`, `Site.fact_text_of_not_names`,
`Site.fact_of_not_text`).

A fact fits an expected value by rules that `Confinement.Fits` writes out one by one; `matchesFact`
decides them (`Confinement.matchesFact_iff`).
-/

namespace ProfileCompiler

/-! ## Known facts -/

namespace Site

/-- Names that lead through nested mappings to a value. -/
inductive Leads : Value → List (List Char) → Value → Prop where
  | here (v : Value) : Leads v [] v
  | into {entries : Entries} {name : List Char} {rest : List (List Char)} {v w : Value} :
      entries.get? (.text (String.ofList name)) = some v → Leads v rest w →
      Leads (.mapping entries) (name :: rest) w

lemma walk_of_leads {v w : Value} {names : List (List Char)} (h : Leads v names w) :
    walk v names = w := by
  induction h with
  | here v => cases v <;> rfl
  | into hget _ ih =>
    unfold walk
    rw [hget]
    exact ih

lemma walk_of_not_leads {v : Value} {names : List (List Char)} (h : ∀ w, ¬ Leads v names w) :
    walk v names = .null := by
  induction names generalizing v with
  | nil => exact absurd (.here v) (h v)
  | cons name rest ih =>
    cases v with
    | scalar s => rfl
    | list items => rfl
    | mapping entries =>
      unfold walk
      cases hget : Table.get? (Scalar.text (String.ofList name)) entries with
      | none => rfl
      | some v => exact ih fun w hw => h w (.into hget hw)

/-- A key names a fact: it stands among the facts, or it is a dotted name that leads to the value
from them. -/
inductive Names (facts : Entries) : Scalar → Value → Prop where
  | directly {key v} : facts.get? key = some v → Names facts key v
  | dotted {s v} : facts.get? (.text s) = none →
      Leads (.mapping facts) (Text.pieces (· == '.') s.toList) v → Names facts (.text s) v

lemma fact_of_names {facts : Entries} {key : Scalar} {v : Value} (h : Names facts key v) :
    fact facts key = .ok v := by
  unfold fact
  cases h with
  | directly hget => rw [hget]
  | dotted hget hleads =>
    rw [hget]
    exact congrArg Except.ok (walk_of_leads hleads)

lemma get?_of_not_names {facts : Entries} {key : Scalar} (h : ∀ v, ¬ Names facts key v) :
    facts.get? key = none := by
  cases hget : facts.get? key with
  | none => rfl
  | some v => exact absurd (.directly hget) (h v)

/-- A text that names no fact has the value null. -/
lemma fact_text_of_not_names {facts : Entries} {s : String}
    (h : ∀ v, ¬ Names facts (.text s) v) : fact facts (.text s) = .ok .null := by
  have hget := get?_of_not_names h
  unfold fact
  rw [hget]
  exact congrArg Except.ok (walk_of_not_leads fun w hw => h w (.dotted hget hw))

/-- A key that is no text and names no fact cannot be looked up. -/
lemma fact_of_not_text {facts : Entries} {key : Scalar} (h : ∀ v, ¬ Names facts key v)
    (hkey : key.text? = none) : fact facts key = .error .noMembers := by
  unfold fact
  rw [get?_of_not_names h]
  cases key with
  | text s => cases hkey
  | null | bool | int | float => rfl

end Site

/-! ## Expected values -/

namespace Confinement

/-- A fact fits an expected value: a text that starts with `!` fits anything but the rest of it, a
list fits what one of its items fits, where a list within it is compared as a whole, and any other
value fits what is the same. -/
inductive Fits (fact : Value) : Value → Prop where
  | other {s : String} : (fact == Value.text s) = false → Fits fact (.text ("!" ++ s))
  | text {s : String} : (∀ rest, s ≠ "!" ++ rest) → (fact == Value.text s) = true →
      Fits fact (.text s)
  | scalar {a : Scalar} : a.text? = none → (fact == .scalar a) = true → Fits fact (.scalar a)
  | mapping {entries : Entries} : (fact == .mapping entries) = true → Fits fact (.mapping entries)
  | item {items : List Value} {item : Value} : item ∈ items → item.items? = none →
      Fits fact item → Fits fact (.list items)
  | whole {items inner : List Value} : .list inner ∈ items → (fact == .list inner) = true →
      Fits fact (.list items)

variable {fact expected : Value}

lemma matchesOne_iff (h : expected.items? = none) :
    matchesOne fact expected = true ↔ Fits fact expected := by
  constructor
  · intro hmatch
    cases expected with
    | list items => cases h
    | mapping entries => exact .mapping hmatch
    | scalar a =>
      cases a with
      | text s =>
        unfold matchesOne at hmatch
        cases hafter : Text.after? "!" s with
        | some rest =>
          simp only [hafter, Bool.not_eq_true'] at hmatch
          rw [Text.after?_eq_some_iff.1 hafter]
          exact .other hmatch
        | none =>
          -- `Fits.text` wants a text that does not start with the mark, and no rest was found.
          simp only [hafter] at hmatch
          refine .text (fun rest hs => ?_) hmatch
          rw [Text.after?_eq_some_iff.2 hs] at hafter
          cases hafter
      | null | bool | int | float => exact .scalar rfl hmatch
  · intro hfits
    cases hfits with
    | other hne =>
      simp only [matchesOne, Value.text, Text.after?_eq_some_iff.2 rfl, Bool.not_eq_true']
      exact hne
    | @text s hplain hsame =>
      have hafter : Text.after? "!" s = none := by
        cases hrest : Text.after? "!" s with
        | none => rfl
        | some rest => exact absurd (Text.after?_eq_some_iff.1 hrest) (hplain rest)
      simp only [matchesOne, Value.text, hafter]
      exact hsame
    | @scalar a ha hsame =>
      cases a with
      | text s => cases ha
      | null | bool | int | float => exact hsame
    | mapping hsame => exact hsame
    | item => cases h
    | whole => cases h

lemma matchesFact_iff : matchesFact fact expected = true ↔ Fits fact expected := by
  cases expected with
  | scalar a =>
    show matchesOne fact (.scalar a) = true ↔ _
    exact matchesOne_iff rfl
  | mapping entries =>
    show matchesOne fact (.mapping entries) = true ↔ _
    exact matchesOne_iff rfl
  | list items =>
    simp only [matchesFact, List.any_eq_true]
    constructor
    · rintro ⟨item, hmem, hitem⟩
      cases item with
      -- A list within the list is compared as a whole and does not offer its own items.
      | list inner => exact .whole hmem hitem
      | scalar a => exact .item hmem rfl ((matchesOne_iff rfl).1 hitem)
      | mapping entries => exact .item hmem rfl ((matchesOne_iff rfl).1 hitem)
    · intro hfits
      cases hfits with
      | @item _ item hmem hplain hitem =>
        refine ⟨item, hmem, ?_⟩
        cases item with
        | list inner => cases hplain
        | scalar a => exact (matchesOne_iff rfl).2 hitem
        | mapping entries => exact (matchesOne_iff rfl).2 hitem
      | whole hmem hsame => exact ⟨_, hmem, hsame⟩

end Confinement

end ProfileCompiler
