import ProfileCompiler.Note
import ProfileCompiler.Specification
import ProfileCompiler.Value.Printer

/-!
# The check index

The index finds the specifications of the parameter checks by the name of the check, by the
controls they serve, and by the configuration elements they belong to.

A check that is no parameter check is passed over with a note; a parameter check without a
value is a fault.  A specification first names the places under which it is filed
(`CheckIndex.places`), and is then filed there in order.  A check that belongs to a
configuration element is also filed under the controls of that element.
-/

namespace ProfileCompiler

/-- The ways in which a profile refers to checks. -/
inductive ReferenceKind where
  | checks | controls | ces
deriving DecidableEq, Repr

namespace ReferenceKind

/-- The name of a kind of reference in documents. -/
def key : ReferenceKind → String
  | .checks => "checks"
  | .controls => "controls"
  | .ces => "ces"

/-- The kinds of reference in the order in which a profile's references are followed. -/
def all : List ReferenceKind := [.checks, .controls, .ces]

end ReferenceKind

/-- The specifications by kind of reference and name, in catalog order. -/
structure CheckIndex where
  checks : Table Scalar (List Specification)
  controls : Table Scalar (List Specification)
  ces : Table Scalar (List Specification)
deriving Inhabited

namespace CheckIndex

/-- The index without specifications. -/
def empty : CheckIndex := ⟨[], [], []⟩

/-- The table for a kind of reference. -/
def table (index : CheckIndex) : ReferenceKind → Table Scalar (List Specification)
  | .checks => index.checks
  | .controls => index.controls
  | .ces => index.ces

/-- The specifications found under a name; none if nothing is filed there. -/
def find (index : CheckIndex) (kind : ReferenceKind) (name : Scalar) : List Specification :=
  ((index.table kind).get? name).getD []

/-- The index with a specification filed at one more place. -/
def file (spec : Specification) (index : CheckIndex) (place : ReferenceKind × Scalar) :
    CheckIndex :=
  match place.1 with
  | .checks => { index with checks := index.checks.append place.2 spec }
  | .controls => { index with controls := index.controls.append place.2 spec }
  | .ces => { index with ces := index.ces.append place.2 spec }

/-- The index with a specification filed at each of the given places. -/
def fileAll (spec : Specification) (index : CheckIndex) (places : List (ReferenceKind × Scalar)) :
    CheckIndex :=
  places.foldl (file spec) index

/-- The names that are switched on. -/
def enabled (entries : Entries) : List Scalar :=
  (entries.filter fun e => e.2.truthy).map Prod.fst

/-- The places for the controls of a configuration element.  Controls that are neither empty
nor a mapping cannot be gone through. -/
def inherited (element : Value) : Except Fault (List (ReferenceKind × Scalar)) :=
  match element with
  | .mapping entries =>
    match (Table.get? (.text "controls") entries).getD .null with
    | .mapping controls => .ok ((enabled controls).map fun c => (.controls, c))
    | v => if v.truthy then .error .noMembers else .ok []
  | _ => .ok []

/-- The places for the configuration elements that a check names.  A name that is no text or
not in the catalog, or whose entry is null, counts for nothing. -/
def elementPlaces (ces : Entries) : List Value → Except Fault (List (ReferenceKind × Scalar))
  | [] => .ok []
  | name :: rest =>
    match name.text? with
    | none => elementPlaces ces rest
    | some s =>
      match ces.get? (.text s) with
      | none => elementPlaces ces rest
      | some element =>
        if element.isNull then elementPlaces ces rest
        else do
          let controls ← inherited element
          let more ← elementPlaces ces rest
          .ok ((.ces, .text s) :: (controls ++ more))

/-- The places under which a specification is filed: its check, its own controls, and each of
its configuration elements with the controls of that element. -/
def places (ces : Entries) (spec : Specification) :
    Except Fault (List (ReferenceKind × Scalar)) := do
  let elements ← elementPlaces ces (spec.ces.getD [])
  let own := (enabled (spec.controls.getD [])).map fun c => (ReferenceKind.controls, c)
  .ok ((.checks, .text spec.name) :: (own ++ elements))

/-- The types of checks that set a parameter. -/
def parameterTypes : List Value := [.text "puppet", .text "puppet-class-parameter"]

/-- The fault of a check that names a parameter and gives it no value.  It tells the names of both,
and is another fault where one of them cannot be written. -/
def valueMissing (name : Scalar) (parameter : Value) : Fault :=
  match name.plain?, parameter.plain? with
  | some check, some parameter => .missingValue check parameter "unknown"
  | _, _ => .overlongNumber

/-- What a catalog entry is as a parameter check: a specification, or the reason why it is
passed over.  A parameter check without a value is a fault. -/
def classify (name : Scalar) (body : Value) :
    Except Fault (Except SkippedCheck Specification) :=
  match body with
  | .mapping entries =>
    let checkType := (Table.get? (.text "type") entries).getD .null
    if !(parameterTypes.any fun t => t == checkType) then .ok (.error .otherType)
    else
      match Table.get? (.text "settings") entries with
      | some (.mapping settings) =>
        match Table.get? (.text "parameter") settings with
        | none => .ok (.error .noParameter)
        | some parameter =>
          if Table.has (.text "value") settings then
            .ok ((Specification.ofCheck (.scalar name) entries).mapError .invalid)
          else .error (valueMissing name parameter)
      | _ => .ok (.error .noSettings)
  | _ => .ok (.error .notMapping)

/-- The index with one more catalog entry. -/
def add (ces : Entries) (index : CheckIndex) (name : Scalar) (body : Value) :
    Told CheckIndex := do
  match ← Told.of (classify name body) with
  | .error reason =>
    Told.note (.skippedCheck name reason)
    pure index
  | .ok spec =>
    let places ← Told.of (places ces spec)
    pure (fileAll spec index places)

/-- The index with more catalog entries, in order. -/
def addAll (ces : Entries) (index : CheckIndex) : List (Scalar × Value) → Told CheckIndex
  | [] => pure index
  | (name, body) :: rest => do
    let index ← add ces index name body
    addAll ces index rest

/-- The index of the checks of a catalog with the given configuration elements. -/
def build (checks ces : Entries) : Told CheckIndex := addAll ces empty checks

end CheckIndex

end ProfileCompiler
