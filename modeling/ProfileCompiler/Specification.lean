import ProfileCompiler.Complaint

/-!
# Specifications

A specification is what one check of the catalog says about one parameter: the value it is to
have, and metadata that says which controls and configuration elements ask for it.

`Specification.ofCheck` reads a specification from the body of a check or complains about the
body's fields.
-/

namespace ProfileCompiler

/-- What a check says about a parameter. -/
structure Specification where
  name : String
  checkType : String
  parameter : String
  value : Value
  controls : Option Entries
  ces : Option (List Value)
  identifiers : Value
  ovalIds : Value
deriving Repr, Inhabited

/-- The metadata that specifications carry and assignments merge. -/
inductive MetadataField where
  | controls | identifiers | ovalIds
deriving DecidableEq, Repr

namespace MetadataField

/-- The name of a metadata field in documents. -/
def key : MetadataField → String
  | .controls => "controls"
  | .identifiers => "identifiers"
  | .ovalIds => "oval-ids"

/-- The metadata fields in the order in which they are merged. -/
def all : List MetadataField := [.controls, .identifiers, .ovalIds]

/-- The metadata field of a name. -/
def ofKey? (name : String) : Option MetadataField := all.find? fun f => f.key == name

end MetadataField

namespace Specification

/-- The value of a metadata field; null says nothing. -/
def metadata (s : Specification) : MetadataField → Value
  | .controls =>
    match s.controls with
    | some entries => .mapping entries
    | none => .null
  | .identifiers => s.identifiers
  | .ovalIds => s.ovalIds

/-- A field that may be absent or null. -/
def optional {α : Type} (read : Value → Reading α) (v : Value) : Reading (Option α) :=
  if v.isNull then .ok none else (read v).map some

/-- The value at the first of the given keys that is present, or null. -/
def firstOf (names : List String) (body : Entries) : Value :=
  ((names.filterMap fun n => body.get? (.text n)).head?).getD .null

/-- The parameter of a check and its value. -/
def settings (v : Value) : Reading (String × Value) :=
  match v.entries? with
  | some entries =>
    (Reading.required "parameter" Reading.text entries).map fun parameter =>
      (parameter, (Table.get? (.text "value") entries).getD .null)
  | none => Reading.flawed .notFields

/-- The specification that a check of the given name makes.  The name counts, not one that the
body may hold; the spelling `oval-ids` counts before `oval_ids`. -/
def ofCheck (name : Value) (body : Entries) : Reading Specification :=
  let checkType := Reading.required "type" Reading.text body
  let controls := Reading.defaulted "controls" none (optional Reading.mapping) body
  let ces := Reading.defaulted "ces" none (optional (Reading.list .ok)) body
  let parts :=
    Reading.both (Reading.under "name" (Reading.text name))
      (Reading.both checkType
        (Reading.both (Reading.required "settings" settings body) (Reading.both controls ces)))
  parts.map fun (name, checkType, (parameter, value), controls, ces) =>
    { name := name, checkType := checkType, parameter := parameter, value := value,
      controls := controls, ces := ces,
      identifiers := firstOf ["identifiers"] body,
      ovalIds := firstOf ["oval-ids", "oval_ids"] body }

end Specification

end ProfileCompiler
