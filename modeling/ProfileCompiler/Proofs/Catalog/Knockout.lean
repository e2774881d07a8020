import Mathlib.Data.List.Induction
import ProfileCompiler.Proofs.Catalog.Additions
import ProfileCompiler.Proofs.Merge.Knockout

/-!
# Knockout keys in catalogs

Documents use knockout keys to remove what earlier documents have put into an entry.  The keys
themselves are used up, so a catalog has none, with one exception.  An entry may be a scalar or
a list, because a document gave it such a body.  A later mapping for it is not merged, and takes
its knockout keys along (`Catalog.Leaks`).

The main result is `knockoutFree_after_iff`: all catalogs of a load are free of knockout keys
exactly if that does not happen.
-/

namespace ProfileCompiler

namespace Catalog

/-- No entry of the catalog has a knockout key in it. -/
def KnockoutFree (c : Catalog) : Prop := ∀ part, ∀ e ∈ c.get part, e.2.KnockoutFree

/-- A body with a knockout key takes the place of an entry that is no mapping. -/
def Leaks (c : Catalog) (a : Addition) : Prop :=
  (∃ old, c.entry a.part a.name = some old ∧ old.isMapping = false) ∧ ¬ a.body.KnockoutFree

instance (c : Catalog) : DecidablePred c.Leaks := fun a =>
  decidable_of_iff (((c.entry a.part a.name).any fun old => !old.isMapping) = true ∧
    ¬ a.body.KnockoutFree) (by simp [Leaks, Option.any_eq_true])

lemma knockoutFree_empty : empty.KnockoutFree := by
  intro part e he
  cases part <;> cases he

lemma KnockoutFree.entry {c : Catalog} (h : c.KnockoutFree) {part : CatalogSection}
    {name : Scalar} {v : Value} (hv : c.entry part name = some v) : v.KnockoutFree := by
  obtain ⟨e, he, -, rfl⟩ := Table.exists_of_get? hv
  exact h part e he

/-- An addition to a catalog free of knockout keys puts one into it exactly if it leaks. -/
lemma knockoutFree_merged_iff {c : Catalog} (h : c.KnockoutFree) (a : Addition) :
    (merged (c.entry a.part a.name) a.body).KnockoutFree ↔ ¬ c.Leaks a := by
  have hempty : (Value.mapping []).KnockoutFree := by decide
  unfold merged Leaks
  cases hold : c.entry a.part a.name with
  | none =>
    refine iff_of_true ?_ fun hleaks => ?_
    · split
      · exact hempty
      · exact (knockoutFree_deepMerge_iff hempty).2 nofun
    · obtain ⟨⟨old, hsome, -⟩, -⟩ := hleaks
      cases hsome
  | some old =>
    have hfree : old.KnockoutFree := h.entry hold
    simp only [Option.getD_some, Option.some.injEq, exists_eq_left']
    cases hnull : a.body.isNull with
    | false =>
      rw [if_neg Bool.false_ne_true, knockoutFree_deepMerge_iff hfree, not_and, not_not]
    | true =>
      -- A null body leaves the entry as it is, and does not leak since it has no keys.
      have hbody : a.body.KnockoutFree := by
        refine Value.knockoutFree_of_not_mapping ?_
        cases hb : a.body with
        | scalar s => rfl
        | list items => rfl
        | mapping entries => rw [hb] at hnull; cases hnull
      exact iff_of_true hfree fun hleaks => hleaks.2 hbody

lemma knockoutFree_add {c : Catalog} (h : c.KnockoutFree) {a : Addition} (ha : ¬ c.Leaks a) :
    (c.add a).KnockoutFree := by
  intro part e he
  unfold add at he
  by_cases hpart : a.part = part
  · subst hpart
    rw [get_set_self, addEntry_eq] at he
    rcases Table.mem_put he with hmem | ⟨hvalue, -⟩
    · exact h _ e hmem
    · rw [hvalue]
      exact (knockoutFree_merged_iff h a).2 ha
  · rw [get_set_of_ne _ _ hpart] at he
    exact h part e he

/-- Additions about different entries of which none leaks leave a catalog free of knockout
keys. -/
lemma knockoutFree_addAll {additions : List Addition}
    (hpair : additions.Pairwise fun a b => ¬ a.Meets b) {c : Catalog} (h : c.KnockoutFree)
    (hleaks : ∀ a ∈ additions, ¬ c.Leaks a) : (c.addAll additions).KnockoutFree := by
  induction additions generalizing c with
  | nil => exact h
  | cons a rest ih =>
    obtain ⟨ha, hrest⟩ := List.pairwise_cons.1 hpair
    obtain ⟨hfirst, hothers⟩ := List.forall_mem_cons.1 hleaks
    refine ih hrest (knockoutFree_add h hfirst) fun b hb => ?_
    -- The entry that the later addition is about stands as before.
    have hsame : (c.add a).entry b.part b.name = c.entry b.part b.name := by
      rw [entry_add, if_neg (by exact ha b hb)]
    unfold Leaks
    rw [hsame]
    exact hothers b hb

end Catalog

namespace Loading

variable {host : Host}

/-- The catalogs of a load of decoded documents are free of knockout keys, all of them, exactly
if no document gives a body with a knockout key to an entry that is no mapping.  Where one does,
the catalog after this document has the key. -/
theorem knockoutFree_after_iff (documents : List (String × Value))
    (hdocuments : ∀ d ∈ documents, d.2.WellFormed) :
    (∀ ds, ds <+: documents → (start.after host ds).catalog.KnockoutFree) ↔
      ∀ ds d, ds ++ [d] <+: documents →
        ∀ a ∈ (survivors host d (start.after host ds).inventory).1,
          ¬ (start.after host ds).catalog.Leaks a := by
  have hdistinct : ∀ ds d, ds ++ [d] <+: documents → d.2.WellFormed := by
    intro ds d hds
    exact hdocuments d (hds.subset (by simp))
  have hnext : ∀ ds d, (start.after host (ds ++ [d])).catalog =
      (start.after host ds).catalog.addAll
        (survivors host d (start.after host ds).inventory).1 := by
    intro ds d
    rw [after_append_singleton, next_eq]
  constructor
  · -- The entries of one document have different names, so what leaks into one is not merged over.
    intro hfree ds d hds a ha hleaks
    have hbefore := hfree ds ((List.prefix_append ds [d]).trans hds)
    have hafter := hfree (ds ++ [d]) hds
    have hentry := Catalog.entry_addAll_of_mem
      (pairwise_survivors (hdistinct ds d hds) _) ha (start.after host ds).catalog
    rw [← hnext] at hentry
    exact (Catalog.knockoutFree_merged_iff hbefore a).1 (hafter.entry hentry) hleaks
  · intro hleaks ds
    induction ds using List.reverseRecOn with
    | nil => exact fun _ => Catalog.knockoutFree_empty
    | append_singleton ds d ih =>
      intro hds
      have hbefore := ih ((List.prefix_append ds [d]).trans hds)
      rw [hnext]
      exact Catalog.knockoutFree_addAll (pairwise_survivors (hdistinct ds d hds) _) hbefore
        (hleaks ds d hds)

/-- A document with one check. -/
def oneCheck (body : Value) : Value :=
  .ofTexts [("version", .text "2.0.0"), ("checks", .ofTexts [("c", body)])]

/-- The first document makes the check a number, the second one gives it a mapping with a
knockout key. -/
def redefined : List (String × Value) :=
  [("first", oneCheck (.int 5)), ("second", oneCheck (.ofTexts [("--x", .int 1)]))]

/-- The mapping is not merged with the number, and the knockout key stays. -/
theorem knockoutFree_after_iff_redefined :
    (∀ d ∈ redefined, d.2.WellFormed) ∧
      ¬ ∀ ds, ds <+: redefined → (start.after (Site.toHost default) ds).catalog.KnockoutFree := by
  have hformed : ∀ d ∈ redefined, d.2.WellFormed := by decide
  let number := start.after (Site.toHost default) [("first", oneCheck (.int 5))]
  have hleaks : ∃ a ∈ (survivors (Site.toHost default)
      ("second", oneCheck (.ofTexts [("--x", .int 1)])) number.inventory).1,
      number.catalog.Leaks a := by decide +kernel
  refine ⟨hformed, fun hfree => ?_⟩
  obtain ⟨a, ha, hleaks⟩ := hleaks
  exact (knockoutFree_after_iff redefined hformed).1 hfree _ _ (List.prefix_refl _) a ha hleaks

end Loading

end ProfileCompiler
