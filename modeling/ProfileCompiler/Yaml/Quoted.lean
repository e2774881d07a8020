import ProfileCompiler.Text.Numeral
import ProfileCompiler.Yaml.Cursor

/-!
# Quoted scalars

Between single quotation marks a doubled mark stands for one; between double marks there are
escapes.  In both a line end with the blanks around it stands for one blank, and further line
ends for themselves.
-/

namespace ProfileCompiler

namespace Yaml

namespace Quoted

/-- The character that a backslash and a letter stand for. -/
def letterEscape? : Char → Option Char
  | '0' => some '\x00'
  | 'a' => some '\x07'
  | 'b' => some '\x08'
  | 't' => some '\t'
  | '\t' => some '\t'
  | 'n' => some '\n'
  | 'v' => some '\x0b'
  | 'f' => some '\x0c'
  | 'r' => some '\r'
  | 'e' => some '\x1b'
  | ' ' => some ' '
  | '"' => some '"'
  | '\\' => some '\\'
  | '/' => some '/'
  | 'N' => some '\u0085'
  | '_' => some '\u00a0'
  | 'L' => some '\u2028'
  | 'P' => some '\u2029'
  | _ => none

/-- The number of digits after a backslash and a letter that announce a character number. -/
def numberWidth? : Char → Option Nat
  | 'x' => some 2
  | 'u' => some 4
  | 'U' => some 8
  | _ => none

/-- The greatest number that is looked up among the characters at all. -/
def numberLimit : Nat := 0x7FFFFFFF

/-- The character whose number has the given count of digits at the place. -/
def numbered (width : Nat) (c : Cursor) : Except Halt Char :=
  let digits := ((c.rest.take width).map Text.hexValue?).takeWhile Option.isSome
  if digits.length < width then (c.skip digits.length).halt .badYaml
  else
    let n := digits.foldl (fun n d => 16 * n + d.getD 0) 0
    let last := c.skip (width - 1)
    if numberLimit < n then last.halt .beyondRange
    else if 0x10FFFF < n then last.halt .badNumber
    else if 0xD800 ≤ n ∧ n < 0xE000 then last.halt .badYaml
    else .ok (Char.ofNat n)

/-- The line breaks over empty and blank lines, and the place after them. -/
def breaks : Nat → List Char → Cursor → Except Halt (List Char × Cursor)
  | 0, done, c => .ok (done, c)
  | fuel + 1, done, c =>
    if c.atSeparator then c.halt .badYaml
    else
      let c := (c.span isSpace).2
      match c.passBreak with
      | ([], c) => .ok (done, c)
      | (text, c) => breaks fuel (done ++ text) c

/-- What blanks and line ends inside the marks stand for, and the place after them. -/
def gap (c : Cursor) : Except Halt (List Char × Cursor) :=
  let (spaces, c) := c.span isSpace
  match c.passBreak with
  | ([], c) => .ok (spaces, c)
  | (first, c) => do
    let (more, c) ← breaks c.steps [] c
    let first := if first != ['\n'] then first else if more.isEmpty then [' '] else []
    .ok (first ++ more, c)

/-- What an escape stands for, the place being after the backslash, and the place after it. -/
def escape (c : Cursor) : Except Halt (List Char × Cursor) :=
  match c.peek with
  | none => c.halt .badYaml
  | some ch =>
    match letterEscape? ch, numberWidth? ch with
    | some d, _ => .ok ([d], c.next)
    | none, some width => do
      let d ← numbered width c.next
      .ok ([d], c.next.skip width)
    | none, none =>
      if isBreak ch then breaks c.steps [] c.next else c.halt .badYaml

/-- The rest of a quoted scalar, what has been read being in reverse order, and the place
after the closing mark. -/
def scanFrom (mark : Char) : Nat → List Char → Cursor → Except Halt (List Char × Cursor)
  | 0, _, c => c.halt .badYaml
  | fuel + 1, done, c =>
    match c.peek with
    | none => c.halt .badYaml
    | some ch =>
      if ch == mark then
        if mark == '\'' && c.next.peek == some '\'' then
          scanFrom mark fuel ('\'' :: done) c.next.next
        else .ok (done.reverse, c.next)
      else if isSpace ch || isBreak ch then
        match gap c with
        | .ok (text, c) => scanFrom mark fuel (text.reverse ++ done) c
        | .error e => .error e
      else if mark == '"' && ch == '\\' then
        match escape c.next with
        | .ok (text, c) => scanFrom mark fuel (text.reverse ++ done) c
        | .error e => .error e
      else scanFrom mark fuel (ch :: done) c.next

/-- The quoted scalar whose opening mark is at a place. -/
def scan (mark : Char) (c : Cursor) : Except Halt (List Char × Cursor) :=
  scanFrom mark c.steps [] c.next

end Quoted

end Yaml

end ProfileCompiler
