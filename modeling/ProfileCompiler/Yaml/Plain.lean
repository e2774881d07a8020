import ProfileCompiler.Yaml.Cursor

/-!
# Plain scalars

A plain scalar has no marks around it.  It ends before a colon or a comment that ends it, in a
flow collection also before the marks of the collection, and may go on over several lines as
long as these are indented.  A single line end between its pieces counts as a blank.
-/

namespace ProfileCompiler

namespace Yaml

namespace Plain

/-- The marks of flow collections. -/
def isFlowMark (c : Char) : Bool :=
  c == ',' || c == '[' || c == ']' || c == '\x7b' || c == '\x7d'

/-- The marks that no plain scalar starts with, unless a word follows some of them. -/
def isIndicator (c : Char) : Bool := "-?:,[]\x7b\x7d#&*!|>'\"%@\x60".toList.contains c

/-- Whether a plain scalar starts at the place. -/
def starts (inFlow : Bool) (c : Cursor) : Bool :=
  match c.rest with
  | [] => false
  | ch :: rest =>
    !(isIndicator ch || isSpace ch || isBreak ch) ||
      (!endsWord rest.head? && (ch == '-' || (!inFlow && (ch == '?' || ch == ':'))))

/-- Whether a colon before the given text ends a plain scalar. -/
def colonEnds (inFlow : Bool) (rest : List Char) : Bool :=
  endsWord rest.head? || (inFlow && rest.head?.any isFlowMark)

/-- The piece of a plain scalar up to the next blank or end. -/
def piece (inFlow : Bool) : List Char → List Char
  | [] => []
  | ch :: rest =>
    if isSpace ch || isBreak ch || (ch == ':' && colonEnds inFlow rest) ||
        (inFlow && (isFlowMark ch || ch == '?')) then []
    else ch :: piece inFlow rest

/-- The line breaks over empty and blank lines, and the place after them; none if a mark that
separates documents comes first. -/
def moreBreaks : Nat → List Char → Cursor → Option (List Char) × Cursor
  | 0, done, c => (some done, c)
  | fuel + 1, done, c =>
    match c.peek with
    | some ' ' => moreBreaks fuel done c.next
    | some ch =>
      if isBreak ch then
        if c.next.atSeparator then (none, c.next)
        else moreBreaks fuel (done ++ [breakText ch]) c.next
      else (some done, c)
    | none => (some done, c)

/-- What is between two pieces of a plain scalar. -/
structure Gap where
  /-- What the gap stands for; nothing if the scalar ends here. -/
  text : List Char
  cursor : Cursor
  /-- The gap goes over a line end. -/
  broken : Bool

/-- The gap after a piece. -/
def gap (c : Cursor) : Gap :=
  let (spaces, c) := c.span (· == ' ')
  match c.peek with
  | some ch =>
    if isBreak ch then
      if c.next.atSeparator then ⟨[], c.next, true⟩
      else
        match moreBreaks c.steps [] c.next with
        | (none, c) => ⟨[], c, true⟩
        | (some breaks, c) =>
          let first :=
            if breakText ch != '\n' then [breakText ch] else if breaks.isEmpty then [' '] else []
          ⟨first ++ breaks, c, true⟩
    else ⟨spaces, c, false⟩
  | none => ⟨spaces, c, false⟩

/-- A plain scalar, the place after it, and whether the last gap went over a line end. -/
structure Scan where
  text : List Char
  cursor : Cursor
  broken : Bool

/-- The rest of a plain scalar after a gap, the text of the gap standing in front of it.
Outside of flow collections every further line is indented to the margin. -/
def scanFrom (inFlow : Bool) (margin : Nat) : Nat → Gap → Scan
  | 0, before => ⟨[], before.cursor, before.broken⟩
  | fuel + 1, before =>
    let c := before.cursor
    let piece := if c.peek == some '#' then [] else piece inFlow c.rest
    if piece.isEmpty then ⟨[], c, before.broken⟩
    else
      let after := gap (c.skip piece.length)
      let more : Scan :=
        if after.text.isEmpty || after.cursor.peek == some '#' ||
            (!inFlow && after.cursor.column < margin) then ⟨[], after.cursor, after.broken⟩
        else scanFrom inFlow margin fuel after
      { more with text := before.text ++ piece ++ more.text }

/-- The plain scalar at a place. -/
def scan (inFlow : Bool) (margin : Nat) (c : Cursor) : Scan :=
  scanFrom inFlow margin c.steps ⟨[], c, false⟩

end Plain

end Yaml

end ProfileCompiler
