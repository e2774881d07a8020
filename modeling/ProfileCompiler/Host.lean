import ProfileCompiler.Members
import ProfileCompiler.Text.Pieces

/-!
# Hosts

A host answers three questions: what stands under a lookup key, what the value of a fact is,
and which modules are installed.  Its answers may be faults.  A `Site` is a host given by
plain data; a fact with a dotted name is found by walking into structured facts.
-/

namespace ProfileCompiler

/-- What a host answers.  A lookup key may have no value; an unknown fact is null. -/
structure Host where
  lookup : String → Except Fault (Option Value)
  fact : Scalar → Except Fault Value
  modules : Except Fault (List Value)

/-- A host given by its lookup values, its facts and its module records.  What stands for the
records may be any value, which is gone through when they are fetched. -/
structure Site where
  values : Entries
  facts : Entries
  modules : Value
deriving Inhabited

namespace Site

/-- The site that values describe. -/
def ofValues (values facts modules : Value) : Except Fault Site := do
  let values ← values.toEntries
  let facts ← facts.toEntries
  let records ← modules.membersOrNone
  .ok ⟨values, facts, .list records⟩

/-- The value that a path of names leads to, or null. -/
def walk : Value → List (List Char) → Value
  | v, [] => v
  | .mapping entries, name :: rest =>
    match Table.get? (Scalar.text (String.ofList name)) entries with
    | some v => walk v rest
    | none => .null
  | _, _ :: _ => .null

/-- The value of a fact: the fact of that very name, or else the one its dotted name leads
to. -/
def fact (facts : Entries) (name : Scalar) : Except Fault Value :=
  match facts.get? name with
  | some v => .ok v
  | none =>
    match name with
    | .text s => .ok (walk (.mapping facts) (Text.pieces (· == '.') s.toList))
    | _ => .error .noMembers

/-- The host that answers from the site's data. -/
def toHost (site : Site) : Host where
  lookup key := .ok (site.values.get? (.text key))
  fact name := fact site.facts name
  modules := site.modules.members

end Site

end ProfileCompiler
