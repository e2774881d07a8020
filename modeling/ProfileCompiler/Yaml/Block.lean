import ProfileCompiler.Yaml.Cursor

/-!
# Block scalars

A block scalar is the indented lines after a `|` or a `>`.  With `|` the lines stay as they
are; with `>` a line end between two lines that start with no blank counts as a blank.  The
header may give the indentation, and say with `+` or `-` whether the line ends after the last
line are kept or the last line end is dropped.
-/

namespace ProfileCompiler

namespace Yaml

namespace Block

/-- What becomes of the line ends after the last line. -/
inductive Chomping where
  | clip | strip | keep
deriving DecidableEq, Repr

/-- The chomping that a sign stands for. -/
def chomping? : Option Char → Option Chomping
  | some '+' => some .keep
  | some '-' => some .strip
  | _ => none

/-- The extra indentation that a digit at the place stands for; a zero is refused. -/
def indentation? (c : Cursor) : Except Halt (Option Nat) :=
  match c.peek with
  | some ch =>
    if ch.isDigit then if ch == '0' then c.halt .badYaml else .ok (some (ch.toNat - 48))
    else .ok none
  | none => .ok none

/-- The header after the opening mark: chomping, extra indentation, and the place after the
line of the header. -/
def header (c : Cursor) : Except Halt (Chomping × Option Nat × Cursor) := do
  let (chomping, increment, c) ←
    match chomping? c.peek with
    | some chomping => do
      let increment ← indentation? c.next
      pure (chomping, increment, if increment.isSome then c.next.next else c.next)
    | none => do
      let increment ← indentation? c
      let c := if increment.isSome then c.next else c
      match increment, chomping? c.peek with
      | some _, some chomping => pure (chomping, increment, c.next)
      | _, _ => pure (Chomping.clip, increment, c)
  if !endsField c.peek then c.halt .badYaml
  match c.passComment.passBreak with
  | ([], c) => if c.peek.isNone then pure (chomping, increment, c) else c.halt .badYaml
  | (_, c) => pure (chomping, increment, c)

/-- The line ends before the first line, the greatest column reached by blanks, and the place
after them. -/
def leading : Nat → List Char → Nat → Cursor → List Char × Nat × Cursor
  | 0, done, widest, c => (done, widest, c)
  | fuel + 1, done, widest, c =>
    match c.peek with
    | some ' ' => leading fuel done (max widest c.next.column) c.next
    | _ =>
      match c.passBreak with
      | ([], c) => (done, widest, c)
      | (text, c) => leading fuel (done ++ text) widest c

/-- The place after the blanks up to the indentation. -/
def indented (indent : Nat) (c : Cursor) : Cursor :=
  let blanks := c.rest.takeWhile (· == ' ')
  c.skip (min blanks.length (indent - c.column))

/-- The line ends from a place on, and the place in the line after them. -/
def breaks (indent : Nat) : Nat → List Char → Cursor → List Char × Cursor
  | 0, done, c => (done, c)
  | fuel + 1, done, c =>
    match (indented indent c).passBreak with
    | ([], c) => (done, c)
    | (text, c) => breaks indent fuel (done ++ text) c

/-- The lines of a block scalar. -/
structure Lines where
  text : List Char
  /-- The end of the last line. -/
  lastBreak : List Char
  /-- The line ends after that. -/
  trailing : List Char
  cursor : Cursor

/-- Whether a line of the scalar starts at a place. -/
def atLine (indent : Nat) (c : Cursor) : Bool := c.column == indent && c.peek.isSome

/-- The lines from a place on, after the given text and line ends. -/
def lines (folded : Bool) (indent : Nat) : Nat → List Char → List Char → Cursor → Lines
  | 0, done, before, c => ⟨done, [], before, c⟩
  | fuel + 1, done, before, c =>
    if atLine indent c then
      let flush := !c.peek.any isSpace
      let (line, c) := c.span fun ch => !isBreak ch
      let (ending, c) := c.passBreak
      let (after, c) := breaks indent c.steps [] c
      let done := done ++ before ++ line
      if atLine indent c then
        let between :=
          if folded && ending == ['\n'] && flush && !c.peek.any isSpace then
            if after.isEmpty then [' '] else []
          else ending
        lines folded indent fuel (done ++ between) after c
      else ⟨done, ending, after, c⟩
    else ⟨done, [], before, c⟩

/-- The block scalar whose opening mark is at a place, and the place after it.  The lines are
indented at least to the margin. -/
def scan (folded : Bool) (margin : Nat) (c : Cursor) :
    Except Halt (List Char × Cursor) := do
  let (chomping, increment, c) ← header c.next
  let least := max margin 1
  let (indent, before, c) :=
    match increment with
    | none =>
      let (before, widest, c) := leading c.steps [] 0 c
      (max least widest, before, c)
    | some n =>
      let indent := least + n - 1
      let (before, c) := breaks indent c.steps [] c
      (indent, before, c)
  let all := lines folded indent c.steps [] before c
  let ending := if chomping = .strip then [] else all.lastBreak
  let trailing := if chomping = .keep then all.trailing else []
  pure (all.text ++ ending ++ trailing, all.cursor)

end Block

end Yaml

end ProfileCompiler
