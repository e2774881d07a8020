import ProfileCompiler.Proofs.Catalog.Survival
import ProfileCompiler.Proofs.Table.Keys
import ProfileCompiler.Proofs.Table.Permutation

/-!
# Catalogs as folds of what survives

Each entry of a loaded catalog is the fold of the bodies that survive under its section and name,
in the order of the documents, whatever else the documents have (`Catalog.entry_addAll`).  Its
names stand in the order in which they survived first (`Catalog.keys_addAll_empty`).

Additions about different entries can be made in either order, and the catalogs are the same but
for the order of their names (`Catalog.Alike`).  So documents that share no name of a section can
be loaded in either order (`Catalog.entries_of_load`).
-/

namespace ProfileCompiler

namespace Catalog

/-! ## Reading what was added -/

lemma get_add (c : Catalog) (a : Addition) (part : CatalogSection) :
    (c.add a).get part =
      if a.part = part then (c.get part).put a.name (merged (c.entry part a.name) a.body)
      else c.get part := by
  unfold add entry
  by_cases hpart : a.part = part
  · subst hpart
    rw [get_set_self, addEntry_eq, if_pos rfl]
  · rw [get_set_of_ne _ _ hpart, if_neg hpart]

/-- The additions about an entry are folded into it, in order, and no others. -/
lemma entry_addAll (c : Catalog) (additions : List Addition) (part : CatalogSection)
    (name : Scalar) :
    (c.addAll additions).entry part name =
      ((additions.filter fun a => a.name == name && decide (a.part = part)).map (·.body)).foldl
        (fun old body => some (merged old body)) (c.entry part name) := by
  induction additions generalizing c with
  | nil => rfl
  | cons a rest ih =>
    rw [addAll_cons, ih, entry_add, List.filter_cons]
    by_cases ha : a.part = part ∧ (a.name == name) = true
    · obtain ⟨rfl, hname⟩ := ha
      have hsame : c.entry a.part a.name = c.entry a.part name := Table.get?_congr hname _
      simp [hname, hsame]
    · have hother : ¬ (a.name == name && decide (a.part = part)) = true := by
        simpa [and_comm] using ha
      rw [if_neg ha, if_neg hother]

/-- An entry is there as soon as one body was folded into it. -/
lemma foldl_merged_ne_none_iff (bodies : List Value) :
    bodies.foldl (fun old body => some (merged old body)) none ≠ none ↔ bodies ≠ [] := by
  cases bodies using List.reverseRecOn with
  | nil => simp
  | append_singleton bodies body => simp

/-- The names of a section in the order in which they were added first. -/
lemma keys_addAll_empty (additions : List Addition) (part : CatalogSection) :
    ((empty.addAll additions).get part).keys =
      ((additions.filter fun a => a.part = part).map (·.name)).eraseDups := by
  induction additions using List.reverseRecOn with
  | nil => cases part <;> rfl
  | append_singleton additions a ih =>
    rw [addAll_append, addAll_cons, addAll_nil, get_add, List.filter_append, List.map_append]
    by_cases hpart : a.part = part
    · rw [if_pos hpart, Table.keys_put, ih, any_eraseDups]
      simp [hpart, eraseDups_append_singleton]
    · rw [if_neg hpart, ih]
      simp [hpart]

/-! ## Additions in another order -/

/-- The catalogs have the same entries in each section, in whatever order. -/
def Alike (c c' : Catalog) : Prop := ∀ part, (c.get part).Perm (c'.get part)

/-- In no section a name stands twice. -/
def NamesDistinct (c : Catalog) : Prop := ∀ part, Table.Distinct (c.get part)

lemma namesDistinct_empty : empty.NamesDistinct := by
  intro part
  cases part <;> exact Table.distinct_nil

lemma NamesDistinct.add {c : Catalog} (h : c.NamesDistinct) (a : Addition) :
    (c.add a).NamesDistinct := by
  intro part
  rw [get_add]
  split
  · exact Table.distinct_put (h part) _ _
  · exact h part

lemma NamesDistinct.addAll {c : Catalog} (h : c.NamesDistinct) (additions : List Addition) :
    (c.addAll additions).NamesDistinct := by
  induction additions generalizing c with
  | nil => exact h
  | cons a rest ih => exact ih (h.add a)

lemma Alike.refl (c : Catalog) : c.Alike c := fun _ => List.Perm.refl _

lemma Alike.trans {c₁ c₂ c₃ : Catalog} (h : c₁.Alike c₂) (h' : c₂.Alike c₃) : c₁.Alike c₃ :=
  fun part => (h part).trans (h' part)

lemma Alike.add {c c' : Catalog} (h : c.Alike c') (hc : c.NamesDistinct) (a : Addition) :
    (c.add a).Alike (c'.add a) := by
  intro part
  have hentry : c.entry part a.name = c'.entry part a.name :=
    Table.get?_of_perm (h part) (hc part) _
  rw [get_add, get_add, hentry]
  split
  · exact Table.put_perm (h part) (hc part) _ _
  · exact h part

lemma Alike.addAll {c c' : Catalog} (h : c.Alike c') (hc : c.NamesDistinct)
    (additions : List Addition) : (c.addAll additions).Alike (c'.addAll additions) := by
  induction additions generalizing c c' with
  | nil => exact h
  | cons a rest ih => exact ih (h.add hc a) (hc.add a)

variable {a b : Addition} {as bs : List Addition} {c : Catalog}

/-- Two additions about different entries can be made in either order. -/
lemma alike_add_add (h : ¬ a.Meets b) (c : Catalog) :
    ((c.add a).add b).Alike ((c.add b).add a) := by
  intro part
  by_cases ha : a.part = part
  · by_cases hb : b.part = part
    · have hname : (a.name == b.name) = false :=
        Bool.eq_false_iff.2 fun hname => h ⟨ha.trans hb.symm, hname⟩
      have hname' : (b.name == a.name) = false := by
        rw [BEq.comm]
        exact hname
      simp only [get_add, entry, if_pos ha, if_pos hb, Table.get?_put_of_ne hname,
        Table.get?_put_of_ne hname']
      exact Table.put_put_perm hname' _ _ _
    · simp only [get_add, entry, if_pos ha, if_neg hb]
      exact List.Perm.refl _
  · simp only [get_add, entry, if_neg ha]
    exact List.Perm.refl _

lemma alike_add_addAll (h : ∀ b ∈ bs, ¬ a.Meets b) (hc : c.NamesDistinct) :
    ((c.add a).addAll bs).Alike ((c.addAll bs).add a) := by
  induction bs generalizing c with
  | nil => exact Alike.refl _
  | cons b rest ih =>
    obtain ⟨hb, hrest⟩ := List.forall_mem_cons.1 h
    have hfirst : (((c.add a).add b).addAll rest).Alike (((c.add b).add a).addAll rest) :=
      (alike_add_add hb c).addAll ((hc.add a).add b) rest
    exact hfirst.trans (ih hrest (hc.add b))

/-- Additions about different entries can be made in either order. -/
lemma alike_addAll_append (h : ∀ a ∈ as, ∀ b ∈ bs, ¬ a.Meets b) (hc : c.NamesDistinct) :
    (c.addAll (as ++ bs)).Alike (c.addAll (bs ++ as)) := by
  induction as generalizing c with
  | nil =>
    rw [List.append_nil]
    exact Alike.refl _
  | cons a rest ih =>
    obtain ⟨ha, hrest⟩ := List.forall_mem_cons.1 h
    have hfirst : (c.addAll (a :: rest ++ bs)).Alike (((c.add a).addAll bs).addAll rest) := by
      rw [← addAll_append]
      exact ih hrest (hc.add a)
    have hlast : (((c.add a).addAll bs).addAll rest).Alike (((c.addAll bs).add a).addAll rest) :=
      (alike_add_addAll ha hc).addAll ((hc.add a).addAll bs) rest
    rw [addAll_append c bs]
    exact hfirst.trans hlast

/-! ## Loaded catalogs -/

/-- The bodies of a document that survive under a name of a section. -/
def survivingBodies (host : Host) (part : CatalogSection) (name : Scalar) (d : String × Value) :
    List Value :=
  ((kept host d part).filter fun e => e.1 == name).map Prod.snd

/-- Two documents share a name of a section. -/
def Shares (d d' : String × Value) : Prop :=
  ∃ part, ∃ e ∈ entriesOf part d.2, ∃ e' ∈ entriesOf part d'.2, (e.1 == e'.1) = true

variable {host : Host}

/-- What a document adds to a section is what survives there. -/
lemma filter_additions_part (d : String × Value) (part : CatalogSection) :
    ((additions host d).filter fun a => a.part = part) =
      (kept host d part).map fun e => ⟨part, e.1, e.2⟩ := by
  have hsection : ∀ s, (((kept host d s).map fun e => (⟨s, e.1, e.2⟩ : Addition)).filter
      fun a => a.part = part) =
        if s = part then (kept host d s).map fun e => ⟨s, e.1, e.2⟩ else [] := by
    intro s
    split
    · rename_i hs
      refine List.filter_eq_self.2 fun a ha => ?_
      obtain ⟨e, -, rfl⟩ := List.mem_map.1 ha
      exact decide_eq_true hs
    · rename_i hs
      refine List.filter_eq_nil_iff.2 fun a ha => ?_
      obtain ⟨e, -, rfl⟩ := List.mem_map.1 ha
      simpa using hs
  unfold additions CatalogSection.all
  rw [List.filter_flatMap]
  simp only [hsection]
  cases part <;> simp

/-- What a document adds under a name is what survives under it. -/
lemma bodies_additions (d : String × Value) (part : CatalogSection) (name : Scalar) :
    ((additions host d).filter fun a => a.name == name && decide (a.part = part)).map
      Addition.body = survivingBodies host part name d := by
  unfold survivingBodies
  rw [← List.filter_filter, filter_additions_part, List.filter_map, List.map_map]
  rfl

lemma survivingBodies_ne_nil_iff {d : String × Value} {part : CatalogSection} {name : Scalar} :
    survivingBodies host part name d ≠ [] ↔
      isSupported d = true ∧ ∃ e ∈ entriesOf part d.2,
        (e.1 == name) = true ∧ Confinement.passes host d.1 e = true := by
  unfold survivingBodies
  rw [ne_eq, List.map_eq_nil_iff, List.filter_eq_nil_iff]
  constructor
  · intro h
    obtain ⟨e, he, hname⟩ : ∃ e ∈ kept host d part, (e.1 == name) = true := by simpa using h
    obtain ⟨hsupported, hmem, hpasses⟩ := mem_kept.1 he
    exact ⟨hsupported, e, hmem, hname, hpasses⟩
  · rintro ⟨hsupported, e, hmem, hname, hpasses⟩ hnone
    exact hnone e (mem_kept.2 ⟨hsupported, hmem, hpasses⟩) hname

/-- Documents that share no name of a section add different entries. -/
lemma not_meets_of_not_shares {d d' : String × Value} (h : ¬ Shares d d') :
    ∀ a ∈ additions host d, ∀ b ∈ additions host d', ¬ a.Meets b := by
  intro a ha b hb hmeets
  obtain ⟨part, -, ha⟩ := List.mem_flatMap.1 ha
  obtain ⟨e, he, rfl⟩ := List.mem_map.1 ha
  obtain ⟨part', -, hb⟩ := List.mem_flatMap.1 hb
  obtain ⟨e', he', rfl⟩ := List.mem_map.1 hb
  obtain ⟨rfl, hname⟩ : part = part' ∧ (e.1 == e'.1) = true := hmeets
  exact h ⟨part, e, (mem_kept.1 he).2.1, e', (mem_kept.1 he').2.1, hname⟩

/-- Each entry of a loaded catalog is the fold of the bodies that survive under its section and
name, in the order of the documents, and it is there if any survives.  The names stand in the
order in which they survived first.  Adjacent documents that share no name of a section can be
loaded in either order. -/
theorem entries_of_load {documents : List (String × Value)} {c : Catalog} {count : Nat}
    (h : (load host documents empty none).1.outcome = .ok (c, count)) :
    (∀ part name,
      (c.entry part name ≠ none ↔
        ∃ d ∈ documents, isSupported d = true ∧
          ∃ e ∈ entriesOf part d.2, (e.1 == name) = true ∧ Confinement.passes host d.1 e = true) ∧
      c.entry part name =
        (documents.flatMap (survivingBodies host part name)).foldl
          (fun old body => some (merged old body)) none) ∧
    (∀ part, (c.get part).keys =
      (documents.flatMap fun d => (kept host d part).keys).eraseDups) ∧
    ∀ before d d' after, documents = before ++ d :: d' :: after → ¬ Shares d d' →
      ∃ c', (load host (before ++ d' :: d :: after) empty none).1.outcome = .ok (c', count) ∧
        c'.Alike c := by
  obtain ⟨hloads, hcatalog, hcount⟩ := alone_load_eq_ok_iff.1 h
  -- From here on the catalog is the empty one with the additions of all documents.
  have hentry : ∀ part name, c.entry part name =
      (documents.flatMap (survivingBodies host part name)).foldl
        (fun old body => some (merged old body)) none := by
    intro part name
    have hstart : empty.entry part name = none := by cases part <;> rfl
    rw [hcatalog, entry_addAll, List.filter_flatMap, List.map_flatMap, hstart]
    simp only [bodies_additions]
  refine ⟨fun part name => ⟨?_, hentry part name⟩, fun part => ?_, ?_⟩
  · rw [hentry, foldl_merged_ne_none_iff, ne_eq, List.flatMap_eq_nil_iff]
    simp only [← survivingBodies_ne_nil_iff, not_forall, exists_prop]
  · rw [hcatalog, keys_addAll_empty, List.filter_flatMap, List.map_flatMap]
    simp only [filter_additions_part, List.map_map]
    rfl
  · rintro before d d' after rfl hshares
    have hloads' : ∀ e ∈ before ++ d' :: d :: after, Loads host e := by
      intro e he
      refine hloads e ?_
      simpa [or_left_comm] using he
    refine ⟨_, alone_load_eq_ok_iff.2 ⟨hloads', rfl, ?_⟩, ?_⟩
    · rw [hcount]
      simp only [List.countP_append, List.countP_cons]
      omega
    · -- The additions of the two documents are swapped, and those before and after them stay.
      have hbefore := namesDistinct_empty.addAll (before.flatMap (additions host))
      have hapart : ∀ a ∈ additions host d', ∀ b ∈ additions host d, ¬ a.Meets b :=
        fun a ha b hb hmeets =>
          not_meets_of_not_shares hshares b hb a ha ⟨hmeets.1.symm, BEq.symm hmeets.2⟩
      have hswap := (alike_addAll_append hapart hbefore).addAll (hbefore.addAll _)
        (after.flatMap (additions host))
      rw [hcatalog]
      simpa only [List.flatMap_append, List.flatMap_cons, addAll_append] using hswap

/-- A host that runs Linux and has one module. -/
def linux : Host :=
  Site.toHost ⟨[], [(.text "os", .text "linux")], .list [.ofTexts [("name", .text "m")]]⟩

/-- Documents with a null body, a number that a mapping replaces, an entry for another system,
entries for a module and a version that is not supported. -/
def several : List (String × Value) :=
  [("first", .ofTexts [("version", .text "2.0.0"), ("checks", .ofTexts
      [("a", .null), ("b", .int 1), ("c", .ofTexts
        [("confine", .ofTexts [("os", .text "bsd")])])])]),
    ("old", .ofTexts [("version", .text "1.0.0"), ("checks", .ofTexts [("z", .null)])]),
    ("second", .ofTexts [("version", .text "2.1.0"), ("checks", .ofTexts
      [("b", .ofTexts [("x", .int 2)]), ("a", .ofTexts
        [("confine", .ofTexts [("module_name", .text "m")]), ("y", .int 3)])])]),
    ("third", .ofTexts [("version", .text "2.0.0"), ("controls", .ofTexts [("a", .null)])])]

/-- A null body adds an empty entry, with which a later body is merged; the number is replaced; and
the last two documents, which have no name of a section in common, can be loaded in either
order. -/
theorem entries_of_load_several :
    ∃ c, (load linux several empty none).1.outcome = .ok (c, 3) ∧
      (c.entry .checks (.text "b")).any (·.same (.ofTexts [("x", .int 2)])) = true ∧
      c.entry .checks (.text "c") = none ∧
      (c.get .checks).keys.map Scalar.text? = [some "a", some "b"] ∧
      ∃ c', (load linux (several.take 2 ++ [several[3], several[2]]) empty none).1.outcome =
        .ok (c', 3) ∧ c'.Alike c := by
  have hcount : (load linux several empty none).1.outcome.toOption.map Prod.snd = some 3 := by
    decide +kernel
  cases hload : (load linux several empty none).1.outcome with
  | error fault =>
    rw [hload] at hcount
    cases hcount
  | ok result =>
    obtain ⟨c, count⟩ := result
    obtain rfl : count = 3 := by
      rw [hload] at hcount
      exact Option.some.inj hcount
    obtain ⟨hentries, hkeys, hswap⟩ := entries_of_load hload
    have happart : ¬ Shares several[2] several[3] := by
      rintro ⟨part, e, he, e', he', -⟩
      cases part with
      | profiles => cases he
      | controls => cases he
      | checks => cases he'
      | ces => cases he
    refine ⟨c, rfl, ?_, ?_, ?_, hswap (several.take 2) several[2] several[3] [] rfl happart⟩
    · rw [(hentries .checks (.text "b")).2]
      decide +kernel
    · rw [(hentries .checks (.text "c")).2]
      have hnone : several.flatMap (survivingBodies linux .checks (.text "c")) = [] :=
        List.isEmpty_iff.1 (by decide +kernel)
      rw [hnone]
      rfl
    · rw [hkeys]
      decide +kernel

end Catalog

end ProfileCompiler
