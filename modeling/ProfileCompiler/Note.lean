import ProfileCompiler.Complaint
import ProfileCompiler.Fault
import ProfileCompiler.ReadFault
import ProfileCompiler.Value.Printer

/-!
# Notes and accounts

Work on compliance data leaves notes behind: what was passed over and why, and how a
compilation went.  A `Note` is the occasion; `Note.text?` words it.  A note about something that
cannot be written stays without words, and the work goes on.

`Told α` is a finished piece of work: the events in the order in which they happened, and how
it ended.  An event is a note, a fact asked of the host, or the fetching of the module list.
-/

namespace ProfileCompiler

/-- The weight of a note. -/
inductive Level where
  | debug | info | warning
deriving DecidableEq, Repr

/-- Why a check is not a parameter check. -/
inductive SkippedCheck where
  | notMapping
  | otherType
  | noSettings
  | noParameter
  | invalid (complaints : List Complaint)
deriving Repr

/-- An occasion worth a note. -/
inductive Note where
  /-- A module's version cannot be held against a requirement. -/
  | unmatchedModule (record requirement : Value)
  /-- An entry fails its confinement. -/
  | outsideConfinement (name : Scalar) (location : String)
  /-- A confinement that is no mapping is passed over. -/
  | ignoredConfinement (name : Scalar) (location : String)
  /-- A document's version cannot be read. -/
  | unreadableVersion (source : String) (fault : Fault)
  /-- A document has another major version. -/
  | unsupportedVersion (source : String) (version : Value)
  /-- A check is not a parameter check. -/
  | skippedCheck (name : Scalar) (reason : SkippedCheck)
  /-- An active profile is not in the catalog. -/
  | unknownProfile (name : Scalar) (known : List String)
  /-- A parameter has several specifications. -/
  | severalSpecifications (parameter : String)
  /-- A file cannot be read. -/
  | unreadableFile (extension path : String) (fault : ReadFault)
  /-- A key is asked for while a compilation runs. -/
  | compilationRunning (key : String)
  /-- A key is asked for with active profiles. -/
  | enforcing (enforcementKey : String) (profiles : List Value)
  /-- No compiled map is at hand. -/
  | compiling (profiles : List Value)
  /-- Documents have been imported. -/
  | imported (count : Nat)
  /-- A map has been compiled. -/
  | compiled (count : Nat) (seconds : Binary64)
  /-- A compilation failed. -/
  | compilationFailed (key : String) (fault : Fault)
  /-- The details of a failure follow. -/
  | failureDetails
  /-- An application starts. -/
  | starting (application : String)
  /-- The directories that take the place of the search roots, as the application starts. -/
  | dataDirectories (dirs : Option (List String))
  /-- An application ends. -/
  | ending
deriving Repr

/-- The wording of what a note is about, where it lies with the reader of the notes. -/
structure Wording where
  fault : Fault → String
  complaints : List Complaint → String
  readFault : ReadFault → String

namespace Note

/-- The weight of a note. -/
def level : Note → Level
  | .unmatchedModule .. | .unreadableVersion .. | .severalSpecifications _
  | .unreadableFile .. | .compilationFailed .. => .warning
  | .starting _ | .dataDirectories _ | .ending => .info
  | _ => .debug

/-- The words for the reason why a check is no parameter check. -/
def reasonText (w : Wording) : SkippedCheck → String
  | .notMapping => "is not a mapping"
  | .otherType => "is not a puppet parameter"
  | .noSettings => "does not have any settings"
  | .noParameter => "does not have a parameter specified"
  | .invalid complaints => "is not a valid check: " ++ w.complaints complaints

/-- The text of a note, if all that it is about can be written. -/
def text? (w : Wording) : Note → Option String
  | .unmatchedModule record requirement => do
    let record ← record.plain?
    let requirement ← requirement.plain?
    some ("Unable to match " ++ record ++ " against version requirement " ++ requirement)
  | .outsideConfinement name location =>
    name.plain?.map fun name =>
      "SKIP: '" ++ name ++ "' in '" ++ location ++ "' does not match its confinement"
  | .ignoredConfinement name location =>
    name.plain?.map fun name =>
      "Ignoring non-mapping 'confine' on '" ++ name ++ "' in '" ++ location ++ "'"
  | .unreadableVersion source fault => some ("Skipping '" ++ source ++ "': " ++ w.fault fault)
  | .unsupportedVersion source version =>
    version.plain?.map fun version =>
      "Skipping '" ++ source ++ "': version " ++ version ++ " is not supported"
  | .skippedCheck name reason =>
    name.plain?.map fun name => "SKIP: '" ++ name ++ "' " ++ reasonText w reason
  | .unknownProfile name known =>
    name.plain?.map fun name =>
      "SKIP: Profile '" ++ name ++ "' not in '" ++ Text.join "', '" known ++ "'"
  | .severalSpecifications parameter =>
    some ("Multiple valid specifications found for " ++ parameter ++
      ", they will be merged in the order that they were defined")
  | .unreadableFile extension path fault =>
    some ("compliance_engine: Invalid '" ++ extension ++ "' file found at '" ++ path ++ "' => " ++
      w.readFault fault)
  | .compilationRunning key => some ("Compilation in progress, not resolving '" ++ key ++ "'")
  | .enforcing enforcementKey profiles =>
    (Value.list profiles).quoted?.map fun profiles =>
      enforcementKey ++ " set to " ++ profiles ++ ", attempting to enforce"
  | .compiling profiles =>
    (Value.list profiles).quoted?.map fun profiles =>
      "compliance map for " ++ profiles ++ " not found, starting compiler"
  | .imported count => some ("Imported " ++ toString count ++ " compliance documents")
  | .compiled count seconds =>
    some ("compiled compliance_map containing " ++ toString count ++ " keys in " ++ seconds.text ++
      " seconds")
  | .compilationFailed key fault =>
    some ("compliance_engine: compilation failed for '" ++ key ++ "': " ++ w.fault fault)
  | .failureDetails => some "Compilation failure"
  | .starting application => some ("Starting " ++ application ++ "...")
  | .dataDirectories dirs =>
    (dirs.elim Value.null fun ds => .list (ds.map .text)).plain?.map fun dirs =>
      "Compliance data override: " ++ dirs
  | .ending => some "Shutting down..."

end Note

/-- Something that happens in the course of a piece of work. -/
inductive Event where
  /-- A note is left. -/
  | noted (n : Note)
  /-- The host is asked for a fact. -/
  | askedFact (name : Scalar)
  /-- The host is asked for the value under a lookup key. -/
  | askedKey (key : String)
  /-- The host is asked for its module list. -/
  | askedModules
deriving Repr

/-- A finished piece of work: what happened, and how it ended. -/
structure Told (α : Type) where
  events : List Event
  outcome : Except Fault α

namespace Told

variable {α β : Type}

/-- Nothing happens. -/
def done (a : α) : Told α := ⟨[], .ok a⟩

/-- One piece of work after another; the second is not begun if the first ends in a fault. -/
def andThen (x : Told α) (f : α → Told β) : Told β :=
  match x.outcome with
  | .ok a => ⟨x.events ++ (f a).events, (f a).outcome⟩
  | .error fault => ⟨x.events, .error fault⟩

instance : Monad Told where
  pure := done
  bind := andThen

/-- Nothing happens, and the outcome is as given. -/
def of (outcome : Except Fault α) : Told α := ⟨[], outcome⟩

/-- The work ends in a fault. -/
def fail (fault : Fault) : Told α := ⟨[], .error fault⟩

/-- A note is left. -/
def note (n : Note) : Told Unit := ⟨[.noted n], .ok ()⟩

@[simp] theorem outcome_pure (a : α) : (pure a : Told α).outcome = .ok a := rfl

@[simp] theorem events_pure (a : α) : (pure a : Told α).events = [] := rfl

@[simp] theorem outcome_of (x : Except Fault α) : (of x).outcome = x := rfl

@[simp] theorem events_of (x : Except Fault α) : (of x).events = [] := rfl

@[simp] theorem outcome_note (n : Note) : (note n).outcome = .ok () := rfl

/-- The outcome of work in turn is the outcome of its outcomes in turn. -/
theorem outcome_bind (x : Told α) (f : α → Told β) :
    (x >>= f).outcome = x.outcome >>= fun a => (f a).outcome := by
  show (andThen x f).outcome = _
  unfold andThen
  cases x.outcome <;> rfl

/-- Work in turn that succeeds is a success of each part. -/
theorem of_outcome_bind {x : Told α} {f : α → Told β} {b : β}
    (h : (x >>= f).outcome = .ok b) : ∃ a, x.outcome = .ok a ∧ (f a).outcome = .ok b := by
  rw [outcome_bind] at h
  cases hx : x.outcome with
  | ok a =>
    rw [hx] at h
    exact ⟨a, rfl, h⟩
  | error fault =>
    rw [hx] at h
    cases h

/-- The notes among the events. -/
def notes (events : List Event) : List Note :=
  events.filterMap fun
    | .noted n => some n
    | _ => none

/-- The facts asked for, in order. -/
def facts (events : List Event) : List Scalar :=
  events.filterMap fun
    | .askedFact name => some name
    | _ => none

/-- How often the module list was fetched. -/
def fetches (events : List Event) : Nat :=
  (events.filter fun
    | .askedModules => true
    | _ => false).length

end Told

end ProfileCompiler
