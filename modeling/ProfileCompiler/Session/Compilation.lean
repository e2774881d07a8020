import ProfileCompiler.Catalog
import ProfileCompiler.Resolution
import ProfileCompiler.Session.Basic

/-!
# Compilations

A compilation loads every document into a catalog: those found in files, and those that stand
inline under two lookup keys.  From the catalog it makes what a key asks for: for the two
catalog keys a view of the catalog, for any other key the assignments of all parameters.
-/

namespace ProfileCompiler

/-- Where the documents that stand inline come from: the answer under a lookup key. -/
abbrev InlineSource := String → Told Answer

/-- What a compilation makes. -/
inductive Product where
  /-- A view of the catalog. -/
  | view (v : Value)
  /-- The assignments by parameter, from which a map is made. -/
  | map (assignments : Assignments)

namespace Environment

/-- Inline documents come from the host. -/
def hostInline (env : Environment) : InlineSource := fun key =>
  ⟨[.askedKey key], env.host.lookup key⟩

/-- Inline documents come from a mapping. -/
def mappedInline (values : Entries) : InlineSource := fun key =>
  .done (values.get? (.text key))

/-- The value under the enforcement key as a list: nothing is no profile, and a value that is
no list is the only profile. -/
def profileList : Answer → List Value
  | none => []
  | some (.list items) => items
  | some v => if v.isNull then [] else [v]

/-- The active profiles, as the host gives them. -/
def activeProfiles (env : Environment) : Told (List Value) := do
  let answer ← env.hostInline env.enforcementKey
  pure (profileList answer)

end Environment

namespace Compilation

/-- The lookup key of the names of the catalogued profiles. -/
def profilesKey : String := "compliance_markup::debug::profiles"

/-- The lookup key of the whole catalog. -/
def catalogKey : String := "compliance_markup::debug::compliance_data"

/-- The lookup key of the compiled map. -/
def dumpKey : String := "compliance_markup::debug::dump"

/-- The key in the compiled map of the seconds that its compilation took. -/
def secondsKey : String := "compliance_markup::debug::hiera_backend_compile_time"

/-- The seconds that a compilation takes.  No clock is read. -/
def seconds : Binary64 := .zero

/-- The keys that are answered from the catalog. -/
def isCatalogKey (key : String) : Bool := key == profilesKey || key == catalogKey

/-- The lookup keys under which documents stand inline, with the names of these documents. -/
def inlineDocuments : List (String × String) :=
  [("compliance_markup::compliance_map", "puppet://compliance_markup::compliance_map"),
    ("compliance_map", "puppet://compliance_map")]

/-- The documents that stand inline.  Nothing counts as an empty document. -/
def askInline (inline : InlineSource) : List (String × String) → Told (List (String × Value))
  | [] => pure []
  | (key, source) :: rest => do
    let answer ← inline key
    let more ← askInline inline rest
    pure ((source, answer.getD (.mapping [])) :: more)

/-- The catalog of all documents. -/
def catalog (env : Environment) (inline : InlineSource) : Told Catalog := do
  let found ← env.documents
  let inlined ← askInline inline inlineDocuments
  let (catalog, count) ← (Catalog.load env.host (found ++ inlined) .empty none).1
  Told.note (.imported count)
  pure catalog

/-- The compiled map: the selected parts and the seconds. -/
def withSeconds (selected : Entries) : Entries :=
  selected.put (.text secondsKey) (.scalar (.float seconds))

/-- What a key asks for, made from scratch. -/
def run (env : Environment) (inline : InlineSource) (profiles : List Value) (key : String) :
    Told Product := do
  let c ← catalog env inline
  if key = profilesKey then pure (.view (.list (c.profiles.map fun e => .scalar e.1)))
  else if key = catalogKey then pure (.view c.dump)
  else do
    let index ← CheckIndex.build c.checks c.ces
    let assignments ← Resolution.resolve c.profiles index profiles
    pure (.map assignments)

end Compilation

end ProfileCompiler
