import ProfileCompiler.Number.Shortest
import ProfileCompiler.Text.Numeral
import ProfileCompiler.Text.Quoted
import ProfileCompiler.Value.Basic

/-!
# Writing values as JSON

The written text is ASCII.  A character outside the range from space to tilde is written by
its UTF-16 units, except where JSON has a letter for it.  Members are separated by a comma and
a space, names from values by a colon and a space.  The keys of a mapping are written as the
texts of their values, and the infinities as `Infinity` and `-Infinity`.  An integer with too many
digits cannot be written, nor can what holds it.
-/

namespace ProfileCompiler

namespace Json

/-- An escape by the number of a UTF-16 unit. -/
def unitEscape (n : Nat) : List Char := '\\' :: 'u' :: Text.hex 4 n

/-- How a character is written inside a string. -/
def escapeChar (c : Char) : List Char :=
  if c == '"' then ['\\', '"']
  else if c == '\\' then ['\\', '\\']
  else if c == '\n' then ['\\', 'n']
  else if c == '\r' then ['\\', 'r']
  else if c == '\t' then ['\\', 't']
  else if c == '\x0c' then ['\\', 'f']
  else if c == '\x08' then ['\\', 'b']
  else if 0x20 ≤ c.toNat && c.toNat ≤ 0x7E then [c]
  else if c.toNat < 0x10000 then unitEscape c.toNat
  else
    let offset := c.toNat - 0x10000
    unitEscape (0xD800 + offset / 0x400) ++ unitEscape (0xDC00 + offset % 0x400)

/-- A text as a JSON string. -/
def quote (cs : List Char) : List Char :=
  '"' :: (cs.flatMap escapeChar ++ ['"'])

/-- A scalar without quotation marks. -/
def scalarText? : Scalar → Option (List Char)
  | .null => some "null".toList
  | .bool true => some "true".toList
  | .bool false => some "false".toList
  | .int n => (Text.decimal? n).map String.toList
  | .float x => some (x.textWith "Infinity").toList
  | .text s => some s.toList

/-- A scalar as a JSON value. -/
def writeScalar? : Scalar → Option (List Char)
  | .text s => some (quote s.toList)
  | s => scalarText? s

/-- Parts with a comma and a space between them. -/
def commas : List (List Char) → List Char
  | [] => []
  | [one] => one
  | one :: more => one ++ (',' :: ' ' :: commas more)

mutual

/-- A value as JSON text. -/
def write? : Value → Option (List Char)
  | .scalar s => writeScalar? s
  | .list items => (writeItems? items).map fun parts => '[' :: (commas parts ++ [']'])
  | .mapping entries =>
    (writeMembers? entries).map fun parts => '\x7b' :: (commas parts ++ ['\x7d'])

/-- The items of a list as JSON texts. -/
def writeItems? : List Value → Option (List (List Char))
  | [] => some []
  | item :: rest => do
    let first ← write? item
    let more ← writeItems? rest
    some (first :: more)

/-- The entries of a mapping as JSON members. -/
def writeMembers? : List (Scalar × Value) → Option (List (List Char))
  | [] => some []
  | (k, v) :: rest => do
    let key ← scalarText? k
    let value ← write? v
    let more ← writeMembers? rest
    some ((quote key ++ (':' :: ' ' :: value)) :: more)

end

end Json

end ProfileCompiler
