import ProfileCompiler.Yaml.Tag

/-!
# Directives of a YAML text

A directive is a line in front of a document that starts with a percent sign.  One gives the
version of YAML, another says what a handle of tags stands for, and all others count for
nothing.
-/

namespace ProfileCompiler

namespace Yaml

/-- A directive. -/
inductive Directive where
  | version (major minor : Nat)
  | tags (handle start : List Char)
  | other
deriving DecidableEq, Repr

namespace Directive

/-- The word for the version. -/
def versionWord : List Char := "YAML".toList

/-- The word for a handle. -/
def handleWord : List Char := "TAG".toList

/-- The number at a place, and the place after it. -/
def scanNumber (c : Cursor) : Except Halt (Nat × Cursor) :=
  let (digits, after) := c.span Char.isDigit
  if digits.isEmpty then c.halt .badYaml
  else if Text.isOverlong digits then c.halt .badNumber
  else .ok ((Text.natural? digits).getD 0, after)

/-- The version at a place after spaces, and the place after it. -/
def scanVersion (c : Cursor) : Except Halt (Directive × Cursor) := do
  let (major, c) ← scanNumber c.passSpaces
  if c.peek != some '.' then c.halt .badYaml
  let (minor, c) ← scanNumber c.next
  if endsField c.peek then .ok (.version major minor, c) else c.halt .badYaml

/-- The handle at a place after spaces and what it stands for, and the place after that. -/
def scanHandle (c : Cursor) : Except Halt (Directive × Cursor) := do
  let (handle, c) ← Tag.scanHandle c.passSpaces
  if c.peek != some ' ' then c.halt .badYaml
  let (start, c) ← Tag.scanName c.passSpaces
  if endsField c.peek then .ok (.tags handle start, c) else c.halt .badYaml

/-- The directive whose percent sign is at a place, and the place after its line. -/
def scan (c : Cursor) : Except Halt (Directive × Cursor) := do
  let (word, after) := c.next.span Tag.isHandleChar
  if word.isEmpty || !endsField after.peek then after.halt .badYaml
  let (directive, c) ←
    if word == versionWord then scanVersion after
    else if word == handleWord then scanHandle after
    else .ok (.other, after.toLineEnd)
  match c.passComment.passBreak with
  | ([], c) => if c.peek.isNone then .ok (directive, c) else c.halt .badYaml
  | (_, c) => .ok (directive, c)

/-- What the directives in front of a document set. -/
structure Preamble where
  versioned : Bool
  handles : Handles
deriving Repr

namespace Preamble

/-- Nothing is set. -/
def empty : Preamble := ⟨false, []⟩

/-- The preamble with one more directive, unless it sets again what is set already or asks for
another major version than the first. -/
def add? (p : Preamble) : Directive → Option Preamble
  | .version major _ =>
    if p.versioned || major != 1 then none else some { p with versioned := true }
  | .tags handle start =>
    if (p.handles.lookup handle).isSome then none
    else some { p with handles := p.handles ++ [(handle, start)] }
  | .other => some p

/-- What handles stand for after the preamble. -/
def allHandles (p : Preamble) : Handles := p.handles ++ Tag.standardHandles

end Preamble

end Directive

end Yaml

end ProfileCompiler
