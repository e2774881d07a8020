import ProfileCompiler.Text.Numeral
import ProfileCompiler.Yaml.Cursor

/-!
# Tags of a YAML text

A tag says of what kind the node after it is.  It starts with an exclamation mark.  A handle
between two such marks stands for the start of a longer name, which a directive may set; a name
between angle brackets is a whole one; and the mark alone leaves the kind to the spelling.
-/

namespace ProfileCompiler

namespace Yaml

/-- A tag as it is written: its handle, if it has one, and the rest of its name. -/
structure Tag where
  handle : Option (List Char)
  rest : List Char
deriving DecidableEq, Repr

/-- The handles of tags with the starts of names that they stand for. -/
abbrev Handles := List (List Char × List Char)

namespace Tag

/-- The handle of tags that are one's own. -/
def ownHandle : List Char := ['!']

/-- The handle of the tags that everybody knows. -/
def commonHandle : List Char := ['!', '!']

/-- The start of the names that everybody knows. -/
def commonStart : List Char := "tag:yaml.org,2002:".toList

/-- What the handles stand for that no directive sets. -/
def standardHandles : Handles := [(ownHandle, ownHandle), (commonHandle, commonStart)]

/-- The whole name of a tag, if its handle is known. -/
def name? (handles : Handles) (t : Tag) : Option (List Char) :=
  match t.handle with
  | none => some t.rest
  | some handle => (handles.lookup handle).map (· ++ t.rest)

/-- The characters of handles. -/
def isHandleChar (c : Char) : Bool := c.isAlphanum || c == '-' || c == '_'

/-- The characters of names; a percent sign announces one by its bytes. -/
def isNameChar (c : Char) : Bool :=
  c.isAlphanum || "-;/?:@&=+$,_.!~*'()[]".toList.contains c

/-- The bytes from a place on that are written as percent signs with two digits each, after
those read so far, and the place after them. -/
def escapedBytes : Nat → List UInt8 → Cursor → Except Halt (List UInt8 × Cursor)
  | 0, done, c => .ok (done, c)
  | fuel + 1, done, c =>
    match c.rest with
    | '%' :: a :: b :: _ =>
      match Text.hexValue? a, Text.hexValue? b with
      | some a, some b => escapedBytes fuel (done ++ [UInt8.ofNat (16 * a + b)]) (c.skip 3)
      | _, _ => c.halt .badYaml
    | '%' :: _ => c.halt .badYaml
    | _ => .ok (done, c)

/-- The characters whose bytes are written at the place, and the place after them. -/
def escaped (c : Cursor) : Except Halt (List Char × Cursor) := do
  let (bytes, after) ← escapedBytes c.steps [] c
  match String.fromUTF8? ⟨bytes.toArray⟩ with
  | some s => .ok (s.toList, after)
  | none => c.halt .badYaml

/-- The rest of a name after what has been read of it, and the place after it. -/
def nameFrom : Nat → List Char → Cursor → Except Halt (List Char × Cursor)
  | 0, done, c => .ok (done, c)
  | fuel + 1, done, c =>
    let (plain, c) := c.span isNameChar
    if c.peek == some '%' then
      match escaped c with
      | .ok (text, c) => nameFrom fuel (done ++ plain ++ text) c
      | .error h => .error h
    else .ok (done ++ plain, c)

/-- The name at a place, which must not be empty, and the place after it. -/
def scanName (c : Cursor) : Except Halt (List Char × Cursor) := do
  let (name, after) ← nameFrom c.steps [] c
  if after.index == c.index then c.halt .badYaml else .ok (name, after)

/-- The handle at a place, and the place after it.  A mark with a space after it is a handle by
itself. -/
def scanHandle (c : Cursor) : Except Halt (List Char × Cursor) :=
  if c.peek != some '!' then c.halt .badYaml
  else if c.next.peek == some ' ' then .ok (ownHandle, c.next)
  else
    let (name, c) := c.next.span isHandleChar
    if c.peek == some '!' then .ok ('!' :: (name ++ ['!']), c.next) else c.halt .badYaml

/-- The tag whose mark is at a place, and the place after it. -/
def scanParts (c : Cursor) : Except Halt (Tag × Cursor) := do
  if c.next.peek == some '<' then
    let (name, c) ← scanName c.next.next
    if c.peek == some '>' then .ok (⟨none, name⟩, c.next) else c.halt .badYaml
  else if endsWord c.next.peek then .ok (⟨none, ownHandle⟩, c.next)
  else
    let word := c.next.rest.takeWhile fun ch => !endsField (some ch)
    let (handle, c) ← if word.contains '!' then scanHandle c else .ok (ownHandle, c.next)
    let (name, c) ← scanName c
    .ok (⟨some handle, name⟩, c)

/-- The tag whose mark is at a place, and the place after it, where its field has to end. -/
def scan (c : Cursor) : Except Halt (Tag × Cursor) := do
  let (tag, c) ← scanParts c
  if endsField c.peek then .ok (tag, c) else c.halt .badYaml

end Tag

end Yaml

end ProfileCompiler
