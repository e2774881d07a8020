import ProfileCompiler.ReadFault

/-!
# Places in a YAML text

A `Cursor` is a place in a text: what follows it, how many characters precede it, and its line
and column.  It also knows the size of the text, which bounds the work that is left (`steps`).
Lines end with a line feed or one of the other line breaks of YAML 1.1; a byte order mark takes
no column.

Work on a text that cannot go on comes to a `Halt`, which remembers how far it had come.
-/

namespace ProfileCompiler

namespace Yaml

/-- The characters that end a line. -/
def isBreak (c : Char) : Bool :=
  c == '\n' || c == '\u0085' || c == '\u2028' || c == '\u2029'

/-- Blanks within a line. -/
def isSpace (c : Char) : Bool := c == ' ' || c == '\t'

/-- Whether a word ends here: at a blank, at the end of a line, or at the end of the text. -/
def endsWord : Option Char → Bool
  | none => true
  | some c => isSpace c || isBreak c

/-- Whether a field of a line ends here: at a space, at the end of a line, or at the end of the
text. -/
def endsField : Option Char → Bool
  | none => true
  | some c => c == ' ' || isBreak c

/-- The byte order mark. -/
def byteOrderMark : Char := '\ufeff'

/-- What a line break stands for: a line feed, unless it is a separator of lines or
paragraphs. -/
def breakText (c : Char) : Char :=
  if c == '\u2028' || c == '\u2029' then c else '\n'

/-- Characters that may occur in a text: no control characters except tabs and line ends. -/
def isAllowed (c : Char) : Bool :=
  let n := c.toNat
  n == 0x09 || n == 0x0A || n == 0x0D || (0x20 ≤ n && n ≤ 0x7E) || n == 0x85 ||
    (0xA0 ≤ n && n ≤ 0xD7FF) || (0xE000 ≤ n && n ≤ 0xFFFD) || 0x10000 ≤ n

/-- A place in a text. -/
structure Cursor where
  rest : List Char
  index : Nat
  line : Nat
  column : Nat
  /-- The number of characters in the text. -/
  size : Nat
deriving Repr, Inhabited

/-- Why work on a text cannot go on, and how far it had come. -/
structure Halt where
  fault : ReadFault
  index : Nat
deriving Repr

namespace Cursor

/-- The work cannot go on from the place. -/
def halt {α : Type} (c : Cursor) (fault : ReadFault) : Except Halt α := .error ⟨fault, c.index⟩

/-- The start of a text. -/
def start (text : List Char) : Cursor := ⟨text, 0, 0, 0, text.length⟩

/-- The character at the place. -/
def peek (c : Cursor) : Option Char := c.rest.head?

/-- The place after one more character. -/
def next (c : Cursor) : Cursor :=
  match c.rest with
  | [] => c
  | ch :: rest =>
    if isBreak ch then ⟨rest, c.index + 1, c.line + 1, 0, c.size⟩
    else
      let column := if ch == byteOrderMark then c.column else c.column + 1
      ⟨rest, c.index + 1, c.line, column, c.size⟩

/-- The number of steps that are enough to come to the end of the text if every step but the
last passes over a character. -/
def steps (c : Cursor) : Nat := c.size - c.index + 1

/-- The place after a number of characters. -/
def skip : Nat → Cursor → Cursor
  | 0, c => c
  | n + 1, c => skip n c.next

/-- The characters from the place on that satisfy a test, and the place after them. -/
def span (test : Char → Bool) (c : Cursor) : List Char × Cursor :=
  let taken := c.rest.takeWhile test
  (taken, skip taken.length c)

/-- The place after the spaces that are there. -/
def passSpaces (c : Cursor) : Cursor := (c.span (· == ' ')).2

/-- The place at the end of the line. -/
def toLineEnd (c : Cursor) : Cursor := (c.span fun ch => !isBreak ch).2

/-- The place after the spaces and the comment that are there. -/
def passComment (c : Cursor) : Cursor :=
  let c := c.passSpaces
  if c.peek == some '#' then c.toLineEnd else c

/-- The place after the line break that is there, if one is. -/
def passBreak (c : Cursor) : List Char × Cursor :=
  match c.peek with
  | some ch => if isBreak ch then ([breakText ch], c.next) else ([], c)
  | none => ([], c)

/-- Whether one of the marks that separate documents is at the place. -/
def atMark (mark : Char) (c : Cursor) : Bool :=
  [mark, mark, mark].isPrefixOf c.rest && endsWord (c.rest.drop 3).head?

/-- Whether a mark that separates documents is at the place. -/
def atSeparator (c : Cursor) : Bool := c.atMark '-' || c.atMark '.'

end Cursor

end Yaml

end ProfileCompiler
