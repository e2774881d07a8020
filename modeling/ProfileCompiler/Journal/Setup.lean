import ProfileCompiler.Fault

/-!
# Setting up the journal

The journal has one output, which writes records as plain text or as lines of JSON, and a
level below which records are dropped.  The level is given by name.
-/

namespace ProfileCompiler

/-- How the journal writes. -/
structure Journal where
  level : Nat
  json : Bool
deriving DecidableEq, Repr

/-- Why the journal cannot be set up. -/
inductive JournalFault where
  /-- The name stands for a text that is no level. -/
  | notLevel
  /-- The name stands for something that is neither a text nor a number. -/
  | notNumber
deriving DecidableEq, Repr

namespace Journal

/-- The template of plain records. -/
def plainTemplate : String := "%(asctime)s %(levelname)s %(name)s: %(message)s"

/-- The template of records that are written as JSON. -/
def jsonTemplate : String := "%(message)s"

/-- The template of the journal's records. -/
def template (j : Journal) : String := if j.json then jsonTemplate else plainTemplate

/-- The capital letters of a small letter, as far as they belong to ASCII.  A ligature has the
capitals of all its letters. -/
def capitals (c : Char) : List Char :=
  match c with
  | 'ı' => ['I']
  | 'ſ' => ['S']
  | 'ß' => ['S', 'S']
  | 'ﬀ' => ['F', 'F']
  | 'ﬁ' => ['F', 'I']
  | 'ﬂ' => ['F', 'L']
  | 'ﬃ' => ['F', 'F', 'I']
  | 'ﬄ' => ['F', 'F', 'L']
  | 'ﬅ' | 'ﬆ' => ['S', 'T']
  | c => [c.toUpper]

/-- The levels by name. -/
def levels : List (String × Nat) :=
  [("NOTSET", 0), ("DEBUG", 10), ("INFO", 20), ("WARN", 30), ("WARNING", 30), ("ERROR", 40),
    ("CRITICAL", 50), ("FATAL", 50)]

/-- The level when a name stands for none. -/
def standardLevel : Nat := 20

/-- The level that a name stands for, without regard to case. -/
def levelOf (name : String) : Except JournalFault Nat :=
  let name := String.ofList (name.toList.flatMap capitals)
  if name = "BASIC_FORMAT" then .error .notLevel
  else if name = "_STYLES" then .error .notNumber
  else .ok ((levels.lookup name).getD standardLevel)

/-- The journal that a level name and a choice of JSON set up. -/
def setUp (name : String) (json : Bool) : Except JournalFault Journal :=
  (levelOf name).map fun level => ⟨level, json⟩

end Journal

end ProfileCompiler
