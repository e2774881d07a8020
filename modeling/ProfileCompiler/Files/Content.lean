import ProfileCompiler.Json.Reader
import ProfileCompiler.Text.Utf8
import ProfileCompiler.Yaml.Reader

/-!
# The contents of files

A file holds a document as UTF-8 text, which is JSON or YAML.  Line ends may be written with a
carriage return.  JSON text is read as a whole before anything is made of it, YAML text as it
is delivered.

What makes documents of bytes is a pair of `Parsers`; `Content.parsers` are those of this library.
-/

namespace ProfileCompiler

/-- What makes documents of the bytes of files, for JSON and for YAML. -/
structure Parsers (α : Type) where
  json : ByteArray → Except ReadFault α
  yaml : ByteArray → Except ReadFault α

namespace Parsers

/-- The suffix of the names of files that hold JSON. -/
def jsonSuffix : String := ".json"

/-- The document in a file whose name has a suffix. -/
def read {α : Type} (parsers : Parsers α) (suffix : String) (bytes : ByteArray) :
    Except ReadFault α :=
  if suffix = jsonSuffix then parsers.json bytes else parsers.yaml bytes

end Parsers

namespace Content

/-- A text with a line feed for every line end that is a carriage return or has one before its
line feed. -/
def unifyLines : List Char → List Char
  | [] => []
  | '\r' :: '\n' :: rest => '\n' :: unifyLines rest
  | '\r' :: rest => '\n' :: unifyLines rest
  | c :: rest => c :: unifyLines rest

/-- The text that bytes are, if they are text. -/
def text? (bytes : ByteArray) : Option (List Char) :=
  (String.fromUTF8? bytes).map fun s => unifyLines s.toList

/-- The number of blocks before the one in which it shows that bytes are no text.  That the
last character is not whole shows after the last block. -/
def wholeBlocks (bytes : ByteArray) : Nat :=
  match (Text.Utf8.extent bytes.toList).broken with
  | some count => count / Yaml.Delivery.block
  | none => (bytes.size + Yaml.Delivery.block - 1) / Yaml.Delivery.block

/-- The text in the blocks before the one in which it shows that bytes are no text. -/
def textBefore (bytes : ByteArray) : List Char :=
  let start := bytes.extract 0 (wholeBlocks bytes * Yaml.Delivery.block)
  (text? (start.extract 0 (Text.Utf8.extent start.toList).valid)).getD []

/-- How the text in bytes is delivered.  A portion that takes in a block of bytes that are no
text is not delivered at all. -/
def deliver (bytes : ByteArray) : Except ReadFault Yaml.Delivery :=
  match text? bytes with
  | some text => Yaml.Delivery.ofText text
  | none =>
    let text := textBefore bytes
    Yaml.Delivery.ofPortions text (some (text.length / Yaml.Delivery.portion))

/-- The JSON value in bytes. -/
def readJson (bytes : ByteArray) : Except ReadFault Value :=
  match text? bytes with
  | some text => Json.read text
  | none => .error .undecodable

/-- The YAML document in bytes. -/
def readYaml (bytes : ByteArray) : Except ReadFault Value := do
  let delivery ← deliver bytes
  Yaml.read delivery

/-- The parsers for values. -/
def parsers : Parsers Value := ⟨readJson, readYaml⟩

end Content

end ProfileCompiler
