import Mathlib.Data.List.Induction
import ProfileCompiler.Proofs.Catalog.Additions
import ProfileCompiler.Proofs.CheckIndex.WellFormed

/-!
# Catalogs of decoded documents

Decoded documents have no mapping with a key twice.  Loading them gives catalogs with the same
property (`Loading.wellFormed_after`), and these give check indexes with well-formed
specifications (`Catalog.wellFormed_index_of_load`).
-/

namespace ProfileCompiler

namespace Catalog

/-- In each section no name and in each entry no key stands twice. -/
def WellFormed (c : Catalog) : Prop := ∀ part, (Value.mapping (c.get part)).WellFormed

lemma wellFormed_empty : empty.WellFormed := by
  intro part
  cases part <;> exact Value.wellFormed_empty

lemma WellFormed.entry {c : Catalog} (h : c.WellFormed) {part : CatalogSection} {name : Scalar}
    {v : Value} (hv : c.entry part name = some v) : v.WellFormed :=
  Value.wellFormed_of_get? (h part) hv

lemma wellFormed_merged {old : Option Value} (hold : ∀ u, old = some u → u.WellFormed)
    {body : Value} (hbody : body.WellFormed) : (merged old body).WellFormed := by
  have hexisting : (old.getD (.mapping [])).WellFormed := by
    cases old with
    | none => exact Value.wellFormed_empty
    | some u => exact hold u rfl
  unfold merged
  split
  · exact hexisting
  · exact Value.wellFormed_deepMerge _ hexisting hbody

lemma WellFormed.add {c : Catalog} (h : c.WellFormed) {a : Addition} (ha : a.body.WellFormed) :
    (c.add a).WellFormed := by
  intro part
  unfold Catalog.add
  by_cases hpart : a.part = part
  · subst hpart
    rw [get_set_self, addEntry_eq]
    exact Value.wellFormed_put (h _) _ (wellFormed_merged (fun _ hu => h.entry hu) ha)
  · rw [get_set_of_ne _ _ hpart]
    exact h part

lemma WellFormed.addAll {c : Catalog} (h : c.WellFormed) {additions : List Addition}
    (hadditions : ∀ a ∈ additions, a.body.WellFormed) : (c.addAll additions).WellFormed := by
  induction additions generalizing c with
  | nil => exact h
  | cons a rest ih =>
    obtain ⟨ha, hrest⟩ := List.forall_mem_cons.1 hadditions
    exact ih (h.add ha) hrest

end Catalog

namespace Loading

variable {host : Host}

lemma wellFormed_of_mem_surviving {source : String} {document : Entries}
    (hdocument : (Value.mapping document).WellFormed) {sections : List CatalogSection}
    {inventory : Inventory} {a : Addition}
    (ha : a ∈ (surviving host source document sections inventory).1) : a.body.WellFormed := by
  induction sections generalizing inventory with
  | nil => cases ha
  | cons s more ih =>
    unfold surviving at ha
    split at ha
    · rename_i entries hentries
      simp only at ha
      split at ha
      · rename_i kept hkept
        rcases List.mem_append.1 ha with ha | ha
        · obtain ⟨e, he, rfl⟩ := List.mem_map.1 ha
          have hsection := Value.wellFormed_of_get? hdocument hentries
          exact (Value.wellFormed_mapping.1 hsection).2 e ((apply_sublist hkept).subset he)
        · exact ih ha
      · cases ha
    · exact ih ha

/-- The bodies that a decoded document adds are well formed. -/
lemma wellFormed_of_mem_survivors {d : String × Value} (hd : d.2.WellFormed)
    {inventory : Inventory} {a : Addition} (ha : a ∈ (survivors host d inventory).1) :
    a.body.WellFormed := by
  unfold survivors at ha
  split at ha
  · have hdocument : (Value.mapping (d.2.entries?.getD [])).WellFormed := by
      cases hvalue : d.2 with
      | scalar x => exact Value.wellFormed_empty
      | list items => exact Value.wellFormed_empty
      | mapping document => exact hvalue ▸ hd
    exact wellFormed_of_mem_surviving hdocument ha
  · cases ha

/-- The catalog after any number of decoded documents is well formed. -/
theorem wellFormed_after {l : Loading} (hl : l.catalog.WellFormed)
    {documents : List (String × Value)} (hdocuments : ∀ d ∈ documents, d.2.WellFormed) :
    (l.after host documents).catalog.WellFormed := by
  induction documents using List.reverseRecOn with
  | nil => exact hl
  | append_singleton documents d ih =>
    have hbefore := ih fun e he => hdocuments e (List.mem_append_left _ he)
    rw [after_append_singleton, next_eq]
    exact hbefore.addAll fun a ha => wellFormed_of_mem_survivors (hdocuments d (by simp)) ha

end Loading

/-- The specifications of a loaded catalog are well formed. -/
theorem Catalog.wellFormed_index_of_load {host : Host} {documents : List (String × Value)}
    (hdocuments : ∀ d ∈ documents, d.2.WellFormed) {c : Catalog} {count : Nat}
    (hload : (load host documents .empty none).1.outcome = .ok (c, count)) {index : CheckIndex}
    (hbuild : (CheckIndex.build c.checks c.ces).outcome = .ok index) : index.WellFormed := by
  have hcatalog : c.WellFormed := by
    rw [Loading.catalog_of_load hload]
    exact Loading.wellFormed_after wellFormed_empty hdocuments
  exact CheckIndex.wellFormed_of_build (Value.wellFormed_mapping.1 (hcatalog .checks)).2 hbuild

end ProfileCompiler
