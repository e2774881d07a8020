import ProfileCompiler.Catalog
import ProfileCompiler.Proofs.Confinement.Verdict
import ProfileCompiler.Proofs.WellFormed

/-!
# Loading as adding entry by entry

What a document does to a catalog is a list of additions: the entries of its sections that apply
on the host, in the order in which they are merged (`Loading.survivors`).  Which entries these
are is a matter of the document and the host and not of the catalog.  So a load is a fold of
additions over the documents (`Loading.next_eq`), also where documents end in a fault and leave
what was merged before it, and the catalog that `Catalog.load` gives is the end of this fold
(`Loading.catalog_of_load`).

An addition reads and writes one entry of the catalog, the one of its section and name
(`Catalog.entry_add`).  In a document no key stands twice, so its additions are about different
entries (`Loading.pairwise_survivors`), and each of them finds the entry that stood there before
the document (`Catalog.entry_addAll_of_mem`).
-/

namespace ProfileCompiler

/-! ## Additions to a catalog -/

/-- An entry that is to be merged into a section of a catalog. -/
structure Addition where
  part : CatalogSection
  name : Scalar
  body : Value

/-- Two additions are about the same entry. -/
def Addition.Meets (a b : Addition) : Prop := a.part = b.part ∧ (a.name == b.name) = true

namespace Catalog

/-- The entry of a name in a section. -/
def entry (c : Catalog) (part : CatalogSection) (name : Scalar) : Option Value :=
  (c.get part).get? name

/-- What an entry becomes when a body is merged into it. -/
def merged (old : Option Value) (body : Value) : Value :=
  if body.isNull then old.getD (.mapping [])
  else deepMerge (some knockoutMark) (old.getD (.mapping [])) body

/-- The catalog with one more entry merged in. -/
def add (c : Catalog) (a : Addition) : Catalog :=
  c.set (addEntry (c.get a.part) a.name a.body) a.part

/-- The catalog with more entries merged in, one after the other. -/
def addAll (c : Catalog) (additions : List Addition) : Catalog := additions.foldl add c

@[simp] lemma addAll_nil (c : Catalog) : c.addAll [] = c := rfl

@[simp] lemma addAll_cons (c : Catalog) (a : Addition) (rest : List Addition) :
    c.addAll (a :: rest) = (c.add a).addAll rest := rfl

lemma addAll_append (c : Catalog) (as bs : List Addition) :
    c.addAll (as ++ bs) = (c.addAll as).addAll bs := List.foldl_append

@[simp] lemma get_set_self (c : Catalog) (entries : Entries) (part : CatalogSection) :
    (c.set entries part).get part = entries := by
  cases part <;> rfl

lemma get_set_of_ne (c : Catalog) (entries : Entries) {part other : CatalogSection}
    (h : part ≠ other) : (c.set entries part).get other = c.get other := by
  cases part <;> cases other <;> first | rfl | exact absurd rfl h

/-- An entry is put in the place of the old one, or stays where a null body finds it. -/
lemma addEntry_eq (entries : Entries) (name : Scalar) (body : Value) :
    addEntry entries name body = entries.put name (merged (entries.get? name) body) := by
  unfold addEntry merged
  cases hnull : body.isNull with
  | false => rfl
  | true =>
    cases hget : entries.get? name with
    | none => simp [Table.has, hget]
    | some v => simp [Table.has, hget, Table.put_of_get? hget]

/-- An addition changes the entry that it is about and no other. -/
lemma entry_add (c : Catalog) (a : Addition) (part : CatalogSection) (name : Scalar) :
    (c.add a).entry part name =
      if a.part = part ∧ (a.name == name) = true then
        some (merged (c.entry a.part a.name) a.body)
      else c.entry part name := by
  unfold add entry
  by_cases hpart : a.part = part
  · subst hpart
    rw [get_set_self, addEntry_eq, Table.get?_put]
    simp only [true_and]
  · rw [get_set_of_ne _ _ hpart, if_neg fun h => hpart h.1]

/-- Additions about other entries leave an entry as it is. -/
lemma entry_addAll_of_not_meets {additions : List Addition} {a : Addition}
    (h : ∀ b ∈ additions, ¬ b.Meets a) (c : Catalog) :
    (c.addAll additions).entry a.part a.name = c.entry a.part a.name := by
  induction additions generalizing c with
  | nil => rfl
  | cons b rest ih =>
    obtain ⟨hb, hrest⟩ := List.forall_mem_cons.1 h
    rw [addAll_cons, ih hrest, entry_add, if_neg (by exact hb)]

/-- Of additions about different entries each finds what stood there before all of them. -/
lemma entry_addAll_of_mem {additions : List Addition}
    (hpair : additions.Pairwise fun a b => ¬ a.Meets b) {a : Addition} (ha : a ∈ additions)
    (c : Catalog) :
    (c.addAll additions).entry a.part a.name = some (merged (c.entry a.part a.name) a.body) := by
  induction additions generalizing c with
  | nil => cases ha
  | cons b rest ih =>
    obtain ⟨hb, hrest⟩ := List.pairwise_cons.1 hpair
    rw [addAll_cons]
    rcases List.mem_cons.1 ha with rfl | ha
    · have hothers : ∀ d ∈ rest, ¬ d.Meets a := fun d hd hmeets =>
        hb d hd ⟨hmeets.1.symm, BEq.symm hmeets.2⟩
      rw [entry_addAll_of_not_meets hothers, entry_add, if_pos ⟨rfl, BEq.rfl⟩]
    · rw [ih hrest ha, entry_add, if_neg (by exact hb a ha)]

lemma get_addEntries (c : Catalog) (part : CatalogSection) (entries : Entries) :
    c.addAll (entries.map fun e => ⟨part, e.1, e.2⟩) =
      c.set (addEntries (c.get part) entries) part := by
  induction entries generalizing c with
  | nil => cases part <;> rfl
  | cons e rest ih =>
    rw [List.map_cons, addAll_cons, ih]
    unfold add addEntries
    cases part <;> rfl

end Catalog

/-! ## What a document adds -/

/-- How far the loading of documents has come. -/
structure Loading where
  catalog : Catalog
  inventory : Inventory

namespace Loading

/-- Nothing has been loaded. -/
def start : Loading := ⟨.empty, none⟩

/-- The entries of the given sections of a document that apply on the host, up to the section
that ends in a fault, and the module list afterwards. -/
def surviving (host : Host) (source : String) (document : Entries) :
    List CatalogSection → Inventory → List Addition × Inventory
  | [], inventory => ([], inventory)
  | s :: more, inventory =>
    match document.get? (.text s.key) with
    | some (.mapping entries) =>
      let (judged, inventory) := Confinement.apply host source entries inventory
      match judged.outcome with
      | .ok kept =>
        let (rest, inventory) := surviving host source document more inventory
        ((kept.map fun e => ⟨s, e.1, e.2⟩) ++ rest, inventory)
      | .error _ => ([], inventory)
    | _ => surviving host source document more inventory

/-- The entries of a document that are merged into the catalog, and the module list
afterwards.  A document that is not supported adds none. -/
def survivors (host : Host) (d : String × Value) (inventory : Inventory) :
    List Addition × Inventory :=
  match (Catalog.supports d.1 d.2).outcome with
  | .ok true => surviving host d.1 (d.2.entries?.getD []) CatalogSection.all inventory
  | _ => ([], inventory)

/-- The attempt to load one more document.  One that ends in a fault leaves what it had
merged. -/
def next (host : Host) (l : Loading) (d : String × Value) : Loading :=
  let (told, inventory) := Catalog.loadDocument host d.1 d.2 l.catalog l.inventory
  match told.outcome with
  | .ok loaded => ⟨loaded.catalog, inventory⟩
  | .error _ => ⟨l.catalog, inventory⟩

/-- The attempts to load documents, one after the other. -/
def after (host : Host) (l : Loading) (documents : List (String × Value)) : Loading :=
  documents.foldl (next host) l

lemma after_append_singleton (host : Host) (l : Loading) (documents : List (String × Value))
    (d : String × Value) : l.after host (documents ++ [d]) = (l.after host documents).next host d :=
  List.foldl_append

variable {host : Host}

variable (host) in
lemma importSections_eq (source : String) (document : Entries) (sections : List CatalogSection)
    (c : Catalog) (inventory : Inventory) :
    (∃ fault, (Catalog.importSections host source document sections c inventory).1.outcome =
        .ok (c.addAll (surviving host source document sections inventory).1, fault)) ∧
      (Catalog.importSections host source document sections c inventory).2 =
        (surviving host source document sections inventory).2 := by
  induction sections generalizing c inventory with
  | nil => exact ⟨⟨none, rfl⟩, rfl⟩
  | cons s more ih =>
    unfold Catalog.importSections surviving
    cases hget : document.get? (.text s.key) with
    | none => exact ih c inventory
    | some v =>
      cases v with
      | scalar v => exact ih c inventory
      | list items => exact ih c inventory
      | mapping entries =>
        have hattempt :
            (Inquiry.attempt (Confinement.apply host source entries) inventory).1.outcome =
              .ok (Confinement.apply host source entries inventory).1.outcome := rfl
        simp only
        rw [(Inquiry.bind_of_ok hattempt _).1, (Inquiry.bind_of_ok hattempt _).2]
        cases hjudged : (Confinement.apply host source entries inventory).1.outcome with
        | error fault => exact ⟨⟨some fault, rfl⟩, rfl⟩
        | ok kept =>
          obtain ⟨⟨fault, hrest⟩, hinventory⟩ := ih (c.set (Catalog.addEntries (c.get s) kept) s)
            (Confinement.apply host source entries inventory).2
          rw [Catalog.addAll_append, Catalog.get_addEntries]
          exact ⟨⟨fault, hrest⟩, hinventory⟩

variable (host) in
/-- Loading a document merges the entries that apply, or ends in a fault before there are any. -/
lemma loadDocument_eq (d : String × Value) (c : Catalog) (inventory : Inventory) :
    ((∃ loaded, (Catalog.loadDocument host d.1 d.2 c inventory).1.outcome = .ok loaded ∧
          loaded.catalog = c.addAll (survivors host d inventory).1) ∨
        ∃ fault, (Catalog.loadDocument host d.1 d.2 c inventory).1.outcome = .error fault ∧
          (survivors host d inventory).1 = []) ∧
      (Catalog.loadDocument host d.1 d.2 c inventory).2 = (survivors host d inventory).2 := by
  have htell : (Inquiry.tell (Catalog.supports d.1 d.2) inventory).1.outcome =
      (Catalog.supports d.1 d.2).outcome := rfl
  have hkept : (Inquiry.tell (Catalog.supports d.1 d.2) inventory).2 = inventory := rfl
  unfold Catalog.loadDocument survivors
  cases hsupports : (Catalog.supports d.1 d.2).outcome with
  | error fault =>
    obtain ⟨houtcome, hinventory⟩ := Inquiry.bind_of_error (htell.trans hsupports) _
    exact ⟨Or.inr ⟨fault, houtcome, rfl⟩, hinventory⟩
  | ok supported =>
    obtain ⟨houtcome, hinventory⟩ := Inquiry.bind_of_ok (htell.trans hsupports) _
    rw [houtcome, hinventory, hkept]
    cases supported with
    | false => exact ⟨Or.inl ⟨_, rfl, rfl⟩, rfl⟩
    | true =>
      obtain ⟨⟨fault, himport⟩, hsurviving⟩ := importSections_eq host d.1
        (d.2.entries?.getD []) CatalogSection.all c inventory
      obtain ⟨houtcome, hinventory⟩ := Inquiry.bind_of_ok himport _
      simp only [if_true]
      rw [houtcome, hinventory, hsurviving]
      cases fault with
      | none => exact ⟨Or.inl ⟨_, rfl, rfl⟩, rfl⟩
      | some fault => exact ⟨Or.inl ⟨_, rfl, rfl⟩, rfl⟩

/-- What the attempt to load a document comes to: the entries that apply are merged, one by
one. -/
theorem next_eq (l : Loading) (d : String × Value) :
    l.next host d =
      ⟨l.catalog.addAll (survivors host d l.inventory).1, (survivors host d l.inventory).2⟩ := by
  obtain ⟨houtcome, hinventory⟩ := loadDocument_eq host d l.catalog l.inventory
  unfold next
  rcases houtcome with ⟨loaded, houtcome, hcatalog⟩ | ⟨fault, houtcome, hnone⟩
  · simp only [houtcome, hinventory, hcatalog]
  · simp only [houtcome, hinventory, hnone, Catalog.addAll_nil]

/-- The catalog that a load gives is the one after the attempts to load each document. -/
theorem catalog_of_load {documents : List (String × Value)} {c c' : Catalog}
    {inventory : Inventory} {count : Nat}
    (h : (Catalog.load host documents c inventory).1.outcome = .ok (c', count)) :
    c' = ((Loading.mk c inventory).after host documents).catalog := by
  induction documents generalizing c inventory count with
  | nil =>
    cases h
    rfl
  | cons d rest ih =>
    obtain ⟨source, document⟩ := d
    obtain ⟨loaded, hone, h⟩ := Inquiry.of_bind_ok h
    have hnext : (Loading.mk c inventory).next host (source, document) =
        ⟨loaded.catalog, (Catalog.loadDocument host source document c inventory).2⟩ := by
      unfold next
      simp only [hone]
    cases himported : loaded.imported with
    | error fault =>
      simp only [himported] at h
      cases h
    | ok imported =>
      simp only [himported] at h
      obtain ⟨⟨final, n⟩, hrest, h⟩ := Inquiry.of_bind_ok h
      cases h
      rw [after, List.foldl_cons, hnext]
      exact ih hrest

/-! ## A document adds different entries -/

lemma withVerdict_sublist (wanted : Bool) (entries : Entries) (verdicts : List Bool) :
    (Confinement.withVerdict wanted entries verdicts).Sublist entries := by
  induction entries generalizing verdicts with
  | nil => simp [Confinement.withVerdict]
  | cons e rest ih =>
    cases verdicts with
    | nil => simp [Confinement.withVerdict]
    | cons verdict more =>
      have hrest := ih more
      unfold Confinement.withVerdict at hrest ⊢
      rw [List.zip_cons_cons, List.filter_cons]
      split
      · exact hrest.cons_cons e
      · exact hrest.cons e

/-- The entries of a section that apply are some of its entries, in order. -/
lemma apply_sublist {source : String} {entries kept : Entries} {inventory : Inventory}
    (h : (Confinement.apply host source entries inventory).1.outcome = .ok kept) :
    kept.Sublist entries := by
  obtain ⟨verdicts, -, h⟩ := Inquiry.of_bind_ok h
  obtain ⟨_, -, h⟩ := Inquiry.of_bind_ok h
  cases h
  exact withVerdict_sublist true entries verdicts

/-- Each section of a document is gone through once. -/
lemma part_mem_of_mem_surviving {source : String} {document : Entries}
    {sections : List CatalogSection} {inventory : Inventory} {a : Addition}
    (ha : a ∈ (surviving host source document sections inventory).1) : a.part ∈ sections := by
  induction sections generalizing inventory with
  | nil => cases ha
  | cons s more ih =>
    unfold surviving at ha
    split at ha
    · rename_i entries hentries
      simp only at ha
      split at ha
      · rename_i kept hkept
        rcases List.mem_append.1 ha with ha | ha
        · obtain ⟨e, -, rfl⟩ := List.mem_map.1 ha
          exact List.mem_cons_self
        · exact List.mem_cons_of_mem _ (ih ha)
      · cases ha
    · exact List.mem_cons_of_mem _ (ih ha)

lemma pairwise_surviving {source : String} {document : Entries}
    (hdocument : ∀ s : CatalogSection, ∀ entries,
      document.get? (.text s.key) = some (.mapping entries) → Table.Distinct entries)
    {sections : List CatalogSection} (hsections : sections.Nodup) (inventory : Inventory) :
    (surviving host source document sections inventory).1.Pairwise fun a b => ¬ a.Meets b := by
  induction sections generalizing inventory with
  | nil => exact List.Pairwise.nil
  | cons s more ih =>
    obtain ⟨hs, hmore⟩ := List.nodup_cons.1 hsections
    unfold surviving
    split
    · rename_i entries hentries
      simp only
      split
      · rename_i kept hkept
        have hdistinct : Table.Distinct kept :=
          (hdocument s entries hentries).sublist (apply_sublist hkept)
        refine List.pairwise_append.2 ⟨?_, ih hmore _, ?_⟩
        · refine List.pairwise_map.2 (hdistinct.imp ?_)
          intro e e' hne hmeets
          exact Bool.false_ne_true (hne.symm.trans hmeets.2)
        · intro a ha b hb hmeets
          obtain ⟨e, -, rfl⟩ := List.mem_map.1 ha
          have hpart : s = b.part := hmeets.1
          exact hs (hpart ▸ part_mem_of_mem_surviving hb)
      · exact List.Pairwise.nil
    · exact ih hmore _

/-- The entries that a decoded document adds are different entries. -/
theorem pairwise_survivors {d : String × Value} (hd : d.2.WellFormed) (inventory : Inventory) :
    (survivors host d inventory).1.Pairwise fun a b => ¬ a.Meets b := by
  unfold survivors
  split
  · refine pairwise_surviving ?_ (by decide) inventory
    intro s entries hget
    have hentries : Table.get? (Scalar.text s.key) (d.2.entries?.getD []) =
        some (.mapping entries) := hget
    cases hvalue : d.2 with
    | scalar v => rw [hvalue] at hentries; cases hentries
    | list items => rw [hvalue] at hentries; cases hentries
    | mapping document =>
      rw [hvalue] at hd hentries
      exact (Value.wellFormed_mapping.1 (Value.wellFormed_of_get? hd hentries)).1
  · exact List.Pairwise.nil

end Loading

end ProfileCompiler
