import ProfileCompiler.ReadFault
import ProfileCompiler.Value.Basic

/-!
# What can go wrong

A `Fault` ends a piece of work.  The first group is about compliance data and versions and has
fixed wording (`Fault.message`); the second group is about values of the wrong kind.
-/

namespace ProfileCompiler

/-- Why a piece of work ended early. -/
inductive Fault where
  /-- A text is no version; `shown` is the quoted text. -/
  | badVersion (shown : String)
  /-- A text is no version range; `shown` is the quoted text. -/
  | badRange (shown : String)
  /-- An entry carries a confinement that is no mapping. -/
  | badConfinement (location : String)
  /-- A check names a parameter and gives it no value. -/
  | missingValue (check parameter location : String)
  /-- Two specifications of a parameter disagree in the shape of a field (`mismatch`), or their
  merge failed otherwise. -/
  | unmergeable (parameter field : String) (mismatch : Bool)
  /-- A list or mapping is to take in a value of another shape. -/
  | shapeMismatch (incoming existing : Kind)
  /-- An assignment is asked for a part it does not have. -/
  | unknownMode (mode : String)
  /-- A value is asked for members or parts that its kind does not have. -/
  | noMembers
  /-- A list or mapping stands where a name is looked up. -/
  | unusableName
  /-- Names are to be written in a row, and one of them is no text. -/
  | unwritableName
  /-- A value that holds nothing is searched for a name. -/
  | notSearchable
  /-- A value without names is asked for the value at a name. -/
  | notKeyed
  /-- A value that is no sequence is gone through. -/
  | notSequence
  /-- A requirement of compatibility has letters that only look like those of a version. -/
  | unusableClause
  /-- An integer has more digits than can be read or written. -/
  | overlongNumber
  /-- Something that is to be a key with its value has not two parts. -/
  | notPair
  /-- A file stops the search for documents. -/
  | unreadable (fault : ReadFault)
deriving DecidableEq, Repr

namespace Fault

/-- The wording of a fault. -/
def message : Fault → String
  | .badVersion shown => "Invalid version: " ++ shown
  | .badRange shown => "Invalid version range: " ++ shown
  | .badConfinement location => "'confine' must be a Hash in '" ++ location ++ "'"
  | .missingValue check parameter location =>
    "'" ++ check ++ "' has parameter '" ++ parameter ++ "' in '" ++ location ++
      "' but has no assigned value"
  | .unmergeable parameter field mismatch =>
    if field = "value" then
      if mismatch then "Value type mismatch for " ++ parameter
      else "Merge failed for values in " ++ parameter
    else if mismatch then "Type mismatch for " ++ field ++ " in " ++ parameter
    else "Merge failed for " ++ field ++ " in " ++ parameter
  | .shapeMismatch incoming existing =>
    "cannot merge " ++ incoming.label ++ " into " ++ existing.label
  | .unknownMode mode => "Unknown enforcement mode: " ++ mode
  | .noMembers => "the value has no members"
  | .unusableName => "a list or mapping is no name"
  | .unwritableName => "a name is no text"
  | .notSearchable => "the value cannot be searched"
  | .notKeyed => "the value has no names"
  | .notSequence => "the value is no sequence"
  | .unusableClause => "the requirement has no version"
  | .overlongNumber => "the integer has too many digits"
  | .notPair => "the value is no pair"
  | .unreadable _ => "a file cannot be read"

/-- The fault is that a text is no version or no version range. -/
def isVersionFault : Fault → Bool
  | .badVersion _ | .badRange _ => true
  | _ => false

/-- The fault is that two values have shapes that do not go together. -/
def isShapeMismatch : Fault → Bool
  | .shapeMismatch .. => true
  | _ => false

/-- The fault is one of the compliance data, which stops a compilation for good. -/
def isFatal : Fault → Bool
  | .badConfinement _ | .missingValue .. | .unmergeable .. => true
  | _ => false

end Fault

end ProfileCompiler
