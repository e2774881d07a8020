import Mathlib.Data.List.Induction
import ProfileCompiler.Proofs.Catalog.Additions

/-!
# What of the documents survives

The entries of a document that survive are those of a supported document that pass their
confinement (`Catalog.kept`).  This is a matter of the document and the host alone.  Loading
succeeds if each of the documents can be loaded (`Catalog.Loads`), and then adds what survives of
them, document by document (`Catalog.alone_load_eq_ok_iff`).  No entry of the catalog is null then
(`Catalog.isNull_entry_of_load`).
-/

namespace ProfileCompiler

namespace Catalog

open Inquiry Confinement

/-- The entries that a document has in a section.  It has none where it is no mapping or the
section is none. -/
def entriesOf (part : CatalogSection) (document : Value) : Entries :=
  (((document.entries?.getD []).get? (.text part.key)).bind Value.entries?).getD []

/-- Whether the version of a document can be read and is supported. -/
def isSupported (d : String × Value) : Bool := (supports d.1 d.2).outcome.toOption.getD false

/-- The entries of a document that survive in a section: those of a supported document that pass
their confinement. -/
def kept (host : Host) (d : String × Value) (part : CatalogSection) : Entries :=
  if isSupported d then (entriesOf part d.2).filter (passes host d.1) else []

/-- A document can be loaded: its version is read, or what is wrong with it is noted, and if it
is supported each of its entries can be judged. -/
def Loads (host : Host) (d : String × Value) : Prop :=
  ∃ supported, (supports d.1 d.2).outcome = .ok supported ∧
    (supported = true → ∀ part, ∀ e ∈ entriesOf part d.2, Judged host d.1 e)

/-- The additions of a document: what survives in each section, in order. -/
def additions (host : Host) (d : String × Value) : List Addition :=
  CatalogSection.all.flatMap fun part => (kept host d part).map fun e => ⟨part, e.1, e.2⟩

variable {host : Host}

lemma mem_kept {d : String × Value} {part : CatalogSection} {e : Scalar × Value} :
    e ∈ kept host d part ↔
      isSupported d = true ∧ e ∈ entriesOf part d.2 ∧ passes host d.1 e = true := by
  unfold kept
  split
  · rename_i hsupported
    simp [hsupported]
  · rename_i hsupported
    simp [hsupported]

/-! ## One document -/

lemma repeatable_importSections (source : String) (document : Entries)
    (sections : List CatalogSection) (c : Catalog) :
    Repeatable host (importSections host source document sections c) := by
  induction sections generalizing c with
  | nil => exact repeatable_pure host _
  | cons s more ih =>
    unfold importSections
    split
    · refine (repeatable_apply host source _).attempt.bind fun judged => ?_
      split
      · exact ih _
      · exact repeatable_pure host _
    · exact ih c

/-- The sections of a document are imported to the end if each of their entries can be judged. -/
lemma alone_importSections_eq_ok_iff {source : String} {document : Value}
    {sections : List CatalogSection} {c c' : Catalog} :
    (importSections host source (document.entries?.getD []) sections c).alone = .ok (c', none) ↔
      (∀ part ∈ sections, ∀ e ∈ entriesOf part document, Judged host source e) ∧
        c' = c.addAll (sections.flatMap fun part =>
          ((entriesOf part document).filter (passes host source)).map fun e =>
            ⟨part, e.1, e.2⟩) := by
  induction sections generalizing c with
  | nil =>
    unfold importSections
    simp [eq_comm]
  | cons s more ih =>
    rw [List.forall_mem_cons, List.flatMap_cons, addAll_append, get_addEntries]
    unfold importSections
    split
    · rename_i entries hget
      have hentries : entriesOf s document = entries := by
        unfold entriesOf
        rw [hget]
        rfl
      -- The fault of a section is kept as a value, so the work goes on to say how it ended.
      rw [alone_bind_eq_ok_iff (repeatable_apply host source entries).attempt (by
        intro judged
        split
        · exact repeatable_importSections source _ more _
        · exact repeatable_pure host _), hentries]
      constructor
      · rintro ⟨judged, hjudged, h⟩
        cases judged with
        | error fault => cases h
        | ok survivors =>
          obtain ⟨hall, rfl⟩ := alone_apply_eq_ok_iff.1 (Except.ok.inj hjudged)
          obtain ⟨hmore, hc⟩ := ih.1 h
          exact ⟨⟨hall, hmore⟩, hc⟩
      · rintro ⟨⟨hall, hmore⟩, hc⟩
        exact ⟨_, congrArg Except.ok (alone_apply_eq_ok_iff.2 ⟨hall, rfl⟩), ih.2 ⟨hmore, hc⟩⟩
    · -- A section that is no mapping is passed over, as if it were empty.
      rename_i hnone
      have hentries : entriesOf s document = [] := by
        unfold entriesOf
        rw [Value.bind_entries?_of_not_mapping hnone]
        rfl
      have hsame : c.set (addEntries (c.get s) []) s = c := by cases s <;> rfl
      rw [hentries, List.filter_nil, hsame, ih]
      simp

lemma repeatable_loadDocument (source : String) (document : Value) (c : Catalog) :
    Repeatable host (loadDocument host source document c) := by
  unfold loadDocument
  refine (repeatable_tell host _).bind fun supported => ?_
  split
  · refine (repeatable_importSections _ _ _ c).bind fun result => ?_
    obtain ⟨imported, fault⟩ := result
    cases fault with
    | none => exact repeatable_pure host _
    | some fault => exact repeatable_pure host _
  · exact repeatable_pure host _

lemma mem_all (part : CatalogSection) : part ∈ CatalogSection.all := by
  cases part <;> decide

lemma isSupported_of_outcome {d : String × Value} {supported : Bool}
    (h : (supports d.1 d.2).outcome = .ok supported) : isSupported d = supported := by
  unfold isSupported
  rw [h]
  rfl

/-- A document that can be loaded adds what survives of it. -/
lemma alone_loadDocument_eq_ok_iff {d : String × Value} {c c' : Catalog} {imported : Bool} :
    (loadDocument host d.1 d.2 c).alone = .ok ⟨c', .ok imported⟩ ↔
      Loads host d ∧ c' = c.addAll (additions host d) ∧ imported = isSupported d := by
  constructor
  · intro h
    -- First the version is read, then the sections are imported.
    obtain ⟨supported, hsupports, h⟩ := of_bind_ok h
    have hsupported := isSupported_of_outcome hsupports
    unfold additions kept
    rw [hsupported]
    cases supported with
    | false =>
      cases h
      exact ⟨⟨false, hsupports, nofun⟩, rfl, rfl⟩
    | true =>
      obtain ⟨⟨c₁, fault⟩, himport, h⟩ := of_bind_ok h
      cases fault with
      | some fault => cases h
      | none =>
        cases h
        obtain ⟨hjudged, hcatalog⟩ := alone_importSections_eq_ok_iff.1 himport
        exact ⟨⟨true, hsupports, fun _ part => hjudged part (mem_all part)⟩, hcatalog, rfl⟩
  · rintro ⟨⟨supported, hsupports, hjudged⟩, hcatalog, himported⟩
    have hsupported := isSupported_of_outcome hsupports
    unfold additions kept at hcatalog
    rw [hsupported] at hcatalog himported
    have htell : (tell (supports d.1 d.2) none).1.outcome = .ok supported := hsupports
    refine (bind_of_ok htell _).1.trans ?_
    subst himported
    cases imported with
    | false =>
      rw [hcatalog]
      rfl
    | true =>
      have himport := alone_importSections_eq_ok_iff.2 ⟨fun part _ => hjudged rfl part, hcatalog⟩
      exact (bind_of_ok himport _).1

/-! ## Documents in turn -/

lemma repeatable_load (documents : List (String × Value)) (c : Catalog) :
    Repeatable host (load host documents c) := by
  induction documents generalizing c with
  | nil => exact repeatable_pure host _
  | cons d rest ih =>
    unfold load
    refine (repeatable_loadDocument _ _ c).bind fun loaded => ?_
    obtain ⟨catalog, imported⟩ := loaded
    cases imported with
    | error fault => exact repeatable_tell host _
    | ok imported => exact (ih catalog).bind fun _ => repeatable_pure host _

/-- Documents can be loaded if each of them can, and what survives of them is added document by
document. -/
theorem alone_load_eq_ok_iff {documents : List (String × Value)} {c c' : Catalog} {count : Nat} :
    (load host documents c).alone = .ok (c', count) ↔
      (∀ d ∈ documents, Loads host d) ∧ c' = c.addAll (documents.flatMap (additions host)) ∧
        count = documents.countP isSupported := by
  induction documents generalizing c count with
  | nil =>
    unfold load
    simp [eq_comm]
  | cons d rest ih =>
    rw [List.forall_mem_cons, List.flatMap_cons, addAll_append, List.countP_cons]
    -- The module list that the first document leaves makes no difference to the others.
    have hcurrent : Current host (loadDocument host d.1 d.2 c none).2 :=
      (repeatable_loadDocument d.1 d.2 c none (Or.inl rfl)).2
    have hothers := fun catalog => (repeatable_load rest catalog _ hcurrent).1
    constructor
    · intro h
      obtain ⟨⟨catalog, imported⟩, hone, h⟩ := of_bind_ok h
      cases imported with
      | error fault => cases h
      | ok imported =>
        -- The first document was loaded, and then the others into the catalog that it left.
        obtain ⟨hloads, rfl, rfl⟩ := alone_loadDocument_eq_ok_iff.1 hone
        obtain ⟨⟨c₁, n⟩, hrest, h⟩ := of_bind_ok h
        cases h
        obtain ⟨hmore, hcatalog, hcount⟩ := ih.1 ((hothers _).symm.trans hrest)
        rw [← hcount]
        exact ⟨⟨hloads, hmore⟩, hcatalog, by split <;> rfl⟩
    · rintro ⟨⟨hloads, hmore⟩, hcatalog, hcount⟩
      have hone : (loadDocument host d.1 d.2 c).alone =
          .ok ⟨c.addAll (additions host d), .ok (isSupported d)⟩ :=
        alone_loadDocument_eq_ok_iff.2 ⟨hloads, rfl, rfl⟩
      have hrest := (hothers (c.addAll (additions host d))).trans (ih.2 ⟨hmore, hcatalog, rfl⟩)
      refine (bind_of_ok hone _).1.trans ((bind_of_ok hrest _).1.trans ?_)
      rw [hcount]
      cases isSupported d <;> rfl

/-! ## No entry is null -/

lemma isNull_merged {old : Option Value} (hold : ∀ u, old = some u → u.isNull = false)
    (body : Value) : (merged old body).isNull = false := by
  have hexisting : (old.getD (.mapping [])).isNull = false := by
    cases old with
    | none => rfl
    | some u => exact hold u rfl
  unfold merged
  by_cases hnull : body.isNull = true
  · rw [if_pos hnull]
    exact hexisting
  · rw [if_neg hnull]
    unfold deepMerge
    split
    · rfl
    · exact Bool.eq_false_iff.2 hnull

/-- A null body adds an empty entry, so no entry of a loaded catalog is null. -/
theorem isNull_entry_of_load {documents : List (String × Value)} {c : Catalog} {count : Nat}
    (h : (load host documents empty none).1.outcome = .ok (c, count)) {part : CatalogSection}
    {name : Scalar} {v : Value} (hv : c.entry part name = some v) : v.isNull = false := by
  obtain ⟨-, rfl, -⟩ := alone_load_eq_ok_iff.1 h
  clear h
  generalize documents.flatMap (additions host) = additions at hv
  induction additions using List.reverseRecOn generalizing part name v with
  | nil => cases part <;> cases hv
  | append_singleton additions a ih =>
    rw [addAll_append, addAll_cons, addAll_nil, entry_add] at hv
    split at hv
    · cases hv
      exact isNull_merged (fun _ hu => ih hu) a.body
    · exact ih hv

end Catalog

end ProfileCompiler
