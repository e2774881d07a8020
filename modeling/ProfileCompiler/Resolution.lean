import ProfileCompiler.Assignment
import ProfileCompiler.CheckIndex

/-!
# Resolving profiles

The active profiles are listed with the most important first.  `Resolution.collect` walks them
from the last to the first, and each profile's references by kind, and gathers the
specifications they reach; later specifications therefore belong to more important profiles.
`Resolution.resolve` merges the specifications of each parameter in that order.
-/

namespace ProfileCompiler

/-- The assignments by parameter, in order of first occurrence. -/
abbrev Assignments := Table String Assignment

namespace Resolution

/-- The specifications that a profile's references of one kind reach. -/
def reachedBy (index : CheckIndex) (profile : Entries) (kind : ReferenceKind) :
    List Specification :=
  match profile.get? (.text kind.key) with
  | some (.mapping references) => (CheckIndex.enabled references).flatMap (index.find kind)
  | _ => []

/-- The specifications that a catalogued profile reaches. -/
def reached (index : CheckIndex) (profile : Value) : List Specification :=
  match profile with
  | .mapping entries => ReferenceKind.all.flatMap (reachedBy index entries)
  | _ => []

/-- The names of the known profiles, which all have to be texts. -/
def knownNames : List Scalar → Except Fault (List String)
  | [] => .ok []
  | .text s :: rest => (knownNames rest).map (s :: ·)
  | _ :: _ => .error .unwritableName

/-- The specifications that an active profile reaches.  A profile that is not in the catalog
reaches none and is noted. -/
def collectOne (profiles : Entries) (index : CheckIndex) (name : Value) :
    Told (List Specification) :=
  match name.key? with
  | none => Told.fail .unusableName
  | some name =>
    match profiles.get? name with
    | some profile => pure (reached index profile)
    | none => do
      let known ← Told.of (knownNames profiles.keys)
      Told.note (.unknownProfile name known)
      pure []

/-- The specifications that active profiles reach, the profiles taken in the given order. -/
def collectInOrder (profiles : Entries) (index : CheckIndex) :
    List Value → Told (List Specification)
  | [] => pure []
  | name :: rest => do
    let first ← collectOne profiles index name
    let more ← collectInOrder profiles index rest
    pure (first ++ more)

/-- The specifications in working order: the profiles from the last to the first. -/
def collect (profiles : Entries) (index : CheckIndex) (active : List Value) :
    Told (List Specification) :=
  collectInOrder profiles index active.reverse

/-- The list with an item at its end, unless it is there already. -/
def addOnce (seen : List String) (item : String) : List String :=
  if seen.contains item then seen else seen ++ [item]

/-- The parameters of specifications, each once, in order of first occurrence. -/
def parameters (specs : List Specification) : List String :=
  (specs.map Specification.parameter).foldl addOnce []

/-- Whether a parameter has several specifications. -/
def isRepeated (specs : List Specification) (parameter : String) : Bool :=
  (specs.filter fun s => s.parameter == parameter).length > 1

/-- A note for each of the given parameters. -/
def noteSeveral : List String → Told Unit
  | [] => pure ()
  | parameter :: rest => do
    Told.note (.severalSpecifications parameter)
    noteSeveral rest

/-- The assignments after taking in one more specification. -/
def assign (assignments : Assignments) (s : Specification) : Except Fault Assignments :=
  match assignments.get? s.parameter with
  | none => .ok (assignments.put s.parameter (.ofSpecification s))
  | some a => (a.take s).map fun a => assignments.put s.parameter a

/-- The assignments after taking in more specifications, in order. -/
def assignAll (assignments : Assignments) : List Specification → Except Fault Assignments
  | [] => .ok assignments
  | s :: rest => do
    let assignments ← assign assignments s
    assignAll assignments rest

/-- The assignments that specifications make together. -/
def merge (specs : List Specification) : Told Assignments := do
  noteSeveral ((parameters specs).filter (isRepeated specs))
  Told.of (assignAll [] specs)

/-- The assignments that the active profiles ask for. -/
def resolve (profiles : Entries) (index : CheckIndex) (active : List Value) :
    Told Assignments := do
  let specs ← collect profiles index active
  merge specs

end Resolution

end ProfileCompiler
