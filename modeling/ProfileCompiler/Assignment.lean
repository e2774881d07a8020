import ProfileCompiler.Fault
import ProfileCompiler.Merge
import ProfileCompiler.Specification
import ProfileCompiler.Value.Printer

/-!
# Assignments

An assignment is what the specifications of one parameter say together.  It starts from the
first of them (`Assignment.ofSpecification`) and takes in the others one by one
(`Assignment.take`): the value always, metadata only where the specification has any.

`Assignment.project` gives the part of an assignment that a mode names.
-/

namespace ProfileCompiler

/-- The merged value and metadata of a parameter. -/
structure Assignment where
  parameter : String
  value : Value
  controls : Value
  identifiers : Value
  ovalIds : Value
deriving Repr, Inhabited

namespace Assignment

/-- The value of a metadata field. -/
def metadata (a : Assignment) : MetadataField → Value
  | .controls => a.controls
  | .identifiers => a.identifiers
  | .ovalIds => a.ovalIds

/-- The assignment with another value in a metadata field. -/
def withMetadata (a : Assignment) (v : Value) : MetadataField → Assignment
  | .controls => { a with controls := v }
  | .identifiers => { a with identifiers := v }
  | .ovalIds => { a with ovalIds := v }

/-- Metadata that says nothing is an empty mapping. -/
def orEmpty (v : Value) : Value := if v.isNull then .mapping [] else v

/-- The assignment that a single specification makes. -/
def ofSpecification (s : Specification) : Assignment where
  parameter := s.parameter
  value := s.value
  controls := orEmpty (s.metadata .controls)
  identifiers := orEmpty (s.metadata .identifiers)
  ovalIds := orEmpty (s.metadata .ovalIds)

/-- The merged value of a field of a parameter.  A merge that fails is told with the field, and as
a mismatch if it failed over the shapes of the values. -/
def mergeField (parameter field : String) (existing incoming : Value) : Except Fault Value :=
  (mergeValues existing incoming).mapError fun fault =>
    .unmergeable parameter field fault.isShapeMismatch

/-- The assignment after taking in a metadata field of a specification. -/
def takeMetadata (s : Specification) (a : Assignment) (field : MetadataField) :
    Except Fault Assignment :=
  let incoming := s.metadata field
  if incoming.isNull then .ok a
  else do
    let merged ← mergeField s.parameter field.key (a.metadata field) incoming
    .ok (a.withMetadata merged field)

/-- The assignment after taking in one more specification. -/
def take (a : Assignment) (s : Specification) : Except Fault Assignment := do
  let value ← mergeField s.parameter "value" a.value s.value
  let a := { a with value := value }
  let a ← takeMetadata s a .controls
  let a ← takeMetadata s a .identifiers
  takeMetadata s a .ovalIds

/-- The parts of an assignment by name. -/
def fields (a : Assignment) : Table String Value :=
  [("parameter", .text a.parameter), ("value", a.value), ("controls", a.controls),
    ("identifiers", a.identifiers), ("oval-ids", a.ovalIds)]

/-- The mode that asks for the whole assignment. -/
def rawMode : String := "raw"

/-- The part of an assignment that a name stands for, or all of it. -/
def named? (name : String) (a : Assignment) : Option Value :=
  if name = rawMode then some (.ofTexts a.fields) else a.fields.get? name

/-- The fault that no part of an assignment has the name.  It tells the name, and is another fault
where that cannot be written. -/
def unknownPart (mode : Value) : Fault := mode.plain?.elim .overlongNumber .unknownMode

/-- The part of an assignment that a mode names, or all of it.  A list or mapping names
nothing. -/
def project (mode : Value) (a : Assignment) : Except Fault Value :=
  match mode.key? with
  | none => .error .unusableName
  | some _ =>
    match mode.text?.bind a.named? with
    | some v => .ok v
    | none => .error (unknownPart mode)

end Assignment

end ProfileCompiler
