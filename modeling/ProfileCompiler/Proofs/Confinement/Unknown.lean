import ProfileCompiler.Proofs.Confinement.Facts
import ProfileCompiler.Proofs.Table

/-!
# Conditions on unknown facts

A text that names no fact of a site asks for nothing: wherever it is put among the conditions of an
entry, the entry is judged as before.  A key of another kind is no dotted name, so looking it up is
a fault if it stands nowhere among the facts.  `alone_applies_put_unknown` says when that can be
seen: as soon as judging gets to the key, that is if all conditions in front of it hold.
-/

namespace ProfileCompiler

namespace Confinement

open Inquiry

variable {site : Site} {key : Scalar} {before after : List (Scalar × Value)}

/-- What a condition on an unknown fact comes to. -/
def unknownVerdict (key : Scalar) : Except Fault Bool :=
  if key.text?.isSome then .ok true else .error .noMembers

/-- The key stands neither for a module nor for its version. -/
def IsFactKey (key : Scalar) : Prop :=
  (key == moduleNameKey) = false ∧ (key == moduleVersionKey) = false

lemma verdict_unknown (hkey : IsFactKey key) (hunknown : ∀ v, ¬ Site.Names site.facts key v)
    (conditions : Entries) (expected : Value) :
    verdict site.toHost conditions (key, expected) = unknownVerdict key := by
  have hasks : asksFact conditions key = true := by simp [asksFact, hkey.1, hkey.2]
  rw [verdict_fact hasks]
  show (Site.fact site.facts key >>= _) = _
  unfold unknownVerdict
  cases htext : key.text? with
  | none =>
    rw [Site.fact_of_not_text hunknown htext]
    rfl
  | some s =>
    obtain rfl : key = .text s := by
      cases key <;> simp_all [Scalar.text?]
    rw [Site.fact_text_of_not_names hunknown]
    rfl

/-- A fact key between other conditions leaves what is said about modules alone. -/
lemma alone_allHold_insert {host : Host} (hkey : IsFactKey key) (expected : Value)
    (conditions : List (Scalar × Value)) :
    (allHold host (before ++ (key, expected) :: after) conditions).alone =
      (allHold host (before ++ after) conditions).alone := by
  have hget : ∀ k, (key == k) = false →
      Table.get? k (before ++ (key, expected) :: after) = Table.get? k (before ++ after) := by
    intro k hk
    rw [Table.get?_append, Table.get?_append, Table.get?_cons, if_neg (by simp [hk])]
  refine alone_allHold_congr ?_ (hget _ hkey.2) conditions
  rw [Table.has, Table.has, hget _ hkey.1]

/-- An entry with a further condition on an unknown fact is judged as without it, unless the key is
no text and judging gets to it.  Then judging ends in a fault. -/
theorem alone_applies_put_unknown {entries : Entries}
    (hconfine : Table.get? (.text "confine") entries = some (.mapping (before ++ after)))
    (hkey : IsFactKey key) (hunknown : ∀ v, ¬ Site.Names site.facts key v) (expected : Value)
    (location : String) (name : Scalar) :
    let judged (entries : Entries) :=
      (applies site.toHost location name (.mapping entries)).alone
    let put := entries.put (.text "confine") (.mapping (before ++ (key, expected) :: after))
    (judged put = judged entries ↔
      key.text?.isSome = true ∨
        (∃ c ∈ before, verdict site.toHost (before ++ after) c ≠ .ok true) ∨
        judged entries = .error .noMembers) ∧
      (judged put = judged entries ∨ judged put = .error .noMembers) := by
  intro judged put
  have hold : judged entries = (allHold site.toHost (before ++ after) (before ++ after)).alone := by
    show (applies _ _ _ _).alone = _
    rw [applies_of_confine hconfine]
  have hnew : judged put =
      (allHold site.toHost (before ++ after) (before ++ (key, expected) :: after)).alone := by
    show (applies _ _ _ _).alone = _
    rw [applies_of_confine (Table.get?_put_self ..), alone_allHold_insert hkey]
  by_cases hbefore : ∀ c ∈ before, verdict site.toHost (before ++ after) c = .ok true
  · -- Judging gets to the further condition: a text holds there, and any other key is a fault.
    rw [alone_allHold_append_of_all hbefore] at hold hnew
    rw [alone_allHold_cons, verdict_unknown hkey hunknown] at hnew
    unfold unknownVerdict at hnew
    cases htext : key.text? with
    | some s =>
      have hsame : judged put = judged entries := by
        rw [hnew, hold, htext]
        rfl
      exact ⟨iff_of_true hsame (.inl rfl), .inl hsame⟩
    | none =>
      have hfault : judged put = .error .noMembers := by
        rw [hnew, htext]
        rfl
      refine ⟨?_, .inr hfault⟩
      rw [hfault, eq_comm]
      constructor
      · exact fun h => .inr (.inr h)
      · rintro (htext | ⟨c, hc, hnot⟩ | h)
        · cases htext
        · exact absurd (hbefore c hc) hnot
        · exact h
  · -- Judging ends before it, with whatever the conditions in front come to.
    have hsame : judged put = judged entries := by
      rw [hnew, hold, alone_allHold_append_of_not hbefore, alone_allHold_append_of_not hbefore]
    refine ⟨iff_of_true hsame (.inr (.inl ?_)), .inl hsame⟩
    simpa only [not_forall, exists_prop] using hbefore

/-- A site with one fact. -/
def family : Site where
  values := []
  facts := [(.text "os", .ofTexts [("family", .text "Debian")])]
  modules := .list []

/-- An entry that applies to a Debian host still does with a condition on `os.release`, and cannot
be judged with a condition on the number 1. -/
theorem alone_applies_put_unknown_number :
    let debian : Entries := [(.text "os.family", .text "Debian")]
    let confined (conditions : Entries) : Entries := [(.text "confine", .mapping conditions)]
    let judged (entries : Entries) :=
      (applies family.toHost "l" (.text "e") (.mapping entries)).alone
    judged (confined debian) = .ok true ∧
      judged (confined (debian ++ [(.text "os.release", .text "12")])) = .ok true ∧
      judged (confined (debian ++ [(.int 1, .text "12")])) = .error .noMembers := by
  intro debian confined judged
  have hold : judged (confined debian) = .ok true := by decide +kernel
  have hconfine : Table.get? (.text "confine") (confined debian) = some (.mapping (debian ++ [])) :=
    rfl
  have hrelease : ∀ v, ¬ Site.Names family.facts (.text "os.release") v := by
    rintro v (hget | ⟨-, hleads⟩)
    · cases hget
    · have hpieces : Text.pieces (· == '.') "os.release".toList =
          ["os".toList, "release".toList] := by decide +kernel
      rw [hpieces] at hleads
      obtain _ | ⟨hos, hrest⟩ := hleads
      obtain rfl : _ = Value.ofTexts [("family", .text "Debian")] := (Option.some.inj hos).symm
      obtain _ | ⟨hfamily, -⟩ := hrest
      cases hfamily
  have hnumber : ∀ v, ¬ Site.Names family.facts (.int 1) v := by
    intro v hnames
    cases Site.fact_of_names hnames
  refine ⟨hold, ?_, ?_⟩
  · exact ((alone_applies_put_unknown hconfine ⟨rfl, rfl⟩ hrelease (.text "12") "l"
      (.text "e")).1.2 (.inl rfl)).trans hold
  · refine (alone_applies_put_unknown hconfine ⟨rfl, rfl⟩ hnumber (.text "12") "l"
      (.text "e")).2.resolve_left fun hsame => ?_
    obtain htext | ⟨c, hc, hnot⟩ | hfault :=
      (alone_applies_put_unknown hconfine ⟨rfl, rfl⟩ hnumber (.text "12") "l" (.text "e")).1.1 hsame
    · cases htext
    · rw [List.mem_singleton.1 hc] at hnot
      exact hnot (by decide +kernel)
    · cases hold.symm.trans hfault

end Confinement

end ProfileCompiler
