import ProfileCompiler.Complaint
import ProfileCompiler.Json.Writer

/-!
# Requests to the service

A request has a method, a target and perhaps a body.  The body travels as JSON, so the keys of
its mappings are texts when it arrives, and neither infinite numbers nor integers with too many
digits can be sent.  The body of a lookup request is a record; one that does not have the right
fields is complained about.
-/

namespace ProfileCompiler

namespace Service

/-- A request. -/
structure Request where
  method : String
  target : String
  body : Option Value
deriving Repr

/-- A module record in a request. -/
structure ModuleInfo where
  name : String
  version : Option String
deriving Repr

/-- The body of a lookup request. -/
structure LookupRequest where
  key : String
  profiles : List String
  facts : Entries
  modules : List ModuleInfo
  values : Entries
  mode : Option String
deriving Repr

/-- The module record as a value. -/
def ModuleInfo.toValue (m : ModuleInfo) : Value :=
  .ofTexts [("name", .text m.name), ("version", m.version.elim .null .text)]

/-! ## Travel -/

/-- A number that JSON has no word for. -/
def isInfinite : Scalar → Bool
  | .float (.infinite _) => true
  | _ => false

/-- A scalar without quotation marks, as it is sent. -/
def wordFor? (s : Scalar) : Option (List Char) :=
  if isInfinite s then none else Json.scalarText? s

mutual

/-- The value as it arrives, if it can be sent. -/
def sent? : Value → Option Value
  | .scalar s => (wordFor? s).map fun _ => .scalar s
  | .list items => (sentItems? items).map Value.list
  | .mapping entries => (sentEntries? entries).map fun es => .mapping (Table.ofList es)

/-- The items as they arrive. -/
def sentItems? : List Value → Option (List Value)
  | [] => some []
  | v :: rest => do
    let v ← sent? v
    let rest ← sentItems? rest
    some (v :: rest)

/-- The entries as they arrive: their keys have become texts. -/
def sentEntries? : List (Scalar × Value) → Option (List (Scalar × Value))
  | [] => some []
  | (k, v) :: rest => do
    let v ← sent? v
    let rest ← sentEntries? rest
    let word ← wordFor? k
    some ((.text (String.ofList word), v) :: rest)

end

/-! ## Bodies -/

/-- A module record. -/
def readModule (v : Value) : Reading ModuleInfo :=
  match v.entries? with
  | some fields =>
    (Reading.both (Reading.required "name" Reading.text fields)
        (Reading.defaulted "version" none Reading.optionalText fields)).map
      fun (name, version) => ⟨name, version⟩
  | none => Reading.flawed .notRequest

/-- The body of a lookup request.  Fields that are not known count for nothing. -/
def readRequest (v : Value) : Reading LookupRequest :=
  match v.entries? with
  | some fields =>
    let key := Reading.required "key" Reading.text fields
    let profiles := Reading.defaulted "profiles" [] (Reading.list Reading.text) fields
    let facts := Reading.defaulted "facts" [] Reading.mapping fields
    let modules := Reading.defaulted "modules" [] (Reading.list readModule) fields
    let values := Reading.defaulted "values" [] Reading.mapping fields
    let mode := Reading.defaulted "mode" none Reading.optionalText fields
    (Reading.both key (Reading.both profiles (Reading.both facts (Reading.both modules
        (Reading.both values mode))))).map
      fun (key, profiles, facts, modules, values, mode) =>
        ⟨key, profiles, facts, modules, values, mode⟩
  | none => Reading.flawed .notRequest

/-- The body of a request that must have one; null is none. -/
def readBody (body : Option Value) : Reading LookupRequest :=
  Reading.under "body" <|
    match body with
    | some v => if v.isNull then Reading.flawed .missing else readRequest v
    | none => Reading.flawed .missing

end Service

end ProfileCompiler
