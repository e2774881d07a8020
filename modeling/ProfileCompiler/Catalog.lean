import ProfileCompiler.Confinement
import ProfileCompiler.Merge

/-!
# The catalog

A catalog has four sections: profiles, controls, checks and configuration elements.  Documents
of the supported major version are imported one after the other; of each section the entries
that apply on the host are merged into the entries of the same name.

An import that ends in a fault keeps the sections that were merged before it
(`Catalog.importSections`).
-/

namespace ProfileCompiler

/-- The sections of a catalog. -/
inductive CatalogSection where
  | profiles | controls | checks | ces
deriving DecidableEq, Repr

/-- The name of a section in documents. -/
def CatalogSection.key : CatalogSection → String
  | .profiles => "profiles"
  | .controls => "controls"
  | .checks => "checks"
  | .ces => "ce"

/-- The sections in the order in which they are imported. -/
def CatalogSection.all : List CatalogSection := [.profiles, .controls, .checks, .ces]

/-- The merged entries of all imported documents. -/
structure Catalog where
  profiles : Entries
  controls : Entries
  checks : Entries
  ces : Entries
deriving Inhabited

namespace Catalog

/-- The catalog before any import. -/
def empty : Catalog := ⟨[], [], [], []⟩

/-- The entries of a section. -/
def get (c : Catalog) : CatalogSection → Entries
  | .profiles => c.profiles
  | .controls => c.controls
  | .checks => c.checks
  | .ces => c.ces

/-- The catalog with other entries in a section. -/
def set (c : Catalog) (entries : Entries) : CatalogSection → Catalog
  | .profiles => { c with profiles := entries }
  | .controls => { c with controls := entries }
  | .checks => { c with checks := entries }
  | .ces => { c with ces := entries }

/-- The major version of the documents that are imported. -/
def supportedMajor : Nat := 2

/-- Whether a document states a supported version. -/
def supports (source : String) (document : Value) : Told Bool :=
  match document with
  | .mapping entries =>
    match Table.get? (.text "version") entries with
    | none => pure false
    | some version =>
      match Version.ofValue version with
      | .error fault =>
        if fault.isVersionFault then do
          Told.note (.unreadableVersion source fault)
          pure false
        else Told.fail fault
      | .ok v =>
        if v.major = supportedMajor then pure true
        else do
          Told.note (.unsupportedVersion source version)
          pure false
  | _ => pure false

/-- The entries of a section after taking in one more entry.  A null body adds an empty entry
where there is none. -/
def addEntry (section_ : Entries) (name : Scalar) (body : Value) : Entries :=
  if body.isNull then
    if section_.has name then section_ else section_.put name (.mapping [])
  else
    let old := (section_.get? name).getD (.mapping [])
    section_.put name (deepMerge (some knockoutMark) old body)

/-- The entries of a section after taking in entries one by one. -/
def addEntries (section_ entries : Entries) : Entries :=
  entries.foldl (fun acc e => addEntry acc e.1 e.2) section_

/-- The catalog after importing the given sections of a document, and the fault that cut the
work short, if one did. -/
def importSections (host : Host) (source : String) (document : Entries) :
    List CatalogSection → Catalog → Inquiry (Catalog × Option Fault)
  | [], c => pure (c, none)
  | s :: more, c =>
    match document.get? (.text s.key) with
    | some (.mapping entries) => do
      match ← Inquiry.attempt (Confinement.apply host source entries) with
      | .ok kept =>
        importSections host source document more (c.set (addEntries (c.get s) kept) s)
      | .error fault => pure (c, some fault)
    | _ => importSections host source document more c

/-- What the attempt to load a document left: the catalog, and either whether the document was
taken in or the fault that stopped it. -/
structure Loaded where
  catalog : Catalog
  imported : Except Fault Bool

/-- A document loaded into a catalog, if its version is supported. -/
def loadDocument (host : Host) (source : String) (document : Value) (c : Catalog) :
    Inquiry Loaded := do
  if ← Inquiry.tell (supports source document) then
    let (c, fault) ←
      importSections host source (document.entries?.getD []) CatalogSection.all c
    match fault with
    | none => pure ⟨c, .ok true⟩
    | some fault => pure ⟨c, .error fault⟩
  else pure ⟨c, .ok false⟩

/-- Documents loaded one after the other up to the first fault: the catalog and the number of
documents imported. -/
def load (host : Host) : List (String × Value) → Catalog → Inquiry (Catalog × Nat)
  | [], c => pure (c, 0)
  | (source, document) :: rest, c => do
    let loaded ← loadDocument host source document c
    match loaded.imported with
    | .error fault => Inquiry.fail fault
    | .ok imported =>
      let (c, count) ← load host rest loaded.catalog
      pure (c, if imported then count + 1 else count)

/-- The catalog as a value. -/
def dump (c : Catalog) : Value :=
  .ofTexts
    [("version", .text "2.0.0"), ("profiles", .mapping c.profiles),
      ("controls", .mapping c.controls), ("ce", .mapping c.ces), ("checks", .mapping c.checks)]

end Catalog

end ProfileCompiler
