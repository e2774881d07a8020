import ProfileCompiler.Journal.Setup
import ProfileCompiler.Journal.Template
import ProfileCompiler.Journal.Timestamp
import ProfileCompiler.Json.Writer

/-!
# Journal records

A record is written as one line of JSON: when, how grave, who, what, and where they are given
also how long and which exception.  The message is a template into whose places the arguments
are put.
-/

namespace ProfileCompiler

/-- A record of the journal. -/
structure Record where
  logger : Value
  level : Value
  template : String
  arguments : List Value
  /-- When the record was made, in seconds since the start of 1970. -/
  created : Value
  duration : Option Value
  /-- The text of the error that the record is about. -/
  error : Option String
deriving Repr

/-- Why a record cannot be written. -/
inductive RecordFault where
  /-- The level is a list or a mapping. -/
  | unusableLevel
  /-- The time is no number. -/
  | timeless
  | timestamp (fault : Timestamp.TimestampFault)
  | template (fault : Template.TemplateFault)
  /-- An integer of the record has too many digits to be written. -/
  | overlongNumber
deriving DecidableEq, Repr

namespace Record

/-- The names of the levels of gravity. -/
def levelNames : List (Nat × String) :=
  [(0, "NOTSET"), (10, "DEBUG"), (20, "INFO"), (30, "WARNING"), (40, "ERROR"), (50, "CRITICAL")]

/-- How a level of gravity is written: by its name, or by its number if it is given by
name. -/
def levelLabel (level : Scalar) : Except RecordFault Value :=
  match levelNames.find? fun e => level == .int e.1 with
  | some (_, name) => .ok (.text name)
  | none =>
    match level.text?.bind fun s => List.lookup s Journal.levels with
    | some n => .ok (.int n)
    | none =>
      (Text.written .overlongNumber level.plain?).map fun label => .text ("Level " ++ label)

/-- The point in time that a value stands for. -/
def timestamp (created : Value) : Except RecordFault String :=
  match created.key?.map Scalar.identity with
  | some (.number q) => (Timestamp.ofQuantity q).mapError .timestamp
  | _ => .error .timeless

/-- The words for an error with a text. -/
def errorText (text : String) : String :=
  if text = "" then "ValueError" else "ValueError: " ++ text

/-- The record as a line.  The timestamp is made before the message. -/
def line (r : Record) : Except RecordFault String := do
  let level ← r.level.key?.elim (.error .unusableLevel) .ok
  let label ← levelLabel level
  let timestamp ← timestamp r.created
  let message ← (Template.fill r.template r.arguments).mapError .template
  let fields :=
    [("timestamp", Value.text timestamp), ("level", label), ("logger", r.logger),
      ("message", .text message)]
  let duration := r.duration.elim [] fun v => [("duration_s", v)]
  let error := r.error.elim [] fun text => [("exception", Value.text (errorText text))]
  let line ← Text.written .overlongNumber (Json.write? (.ofTexts (fields ++ duration ++ error)))
  .ok (String.ofList line)

end Record

end ProfileCompiler
