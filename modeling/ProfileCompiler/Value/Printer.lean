import ProfileCompiler.Number.Shortest
import ProfileCompiler.Text.Numeral
import ProfileCompiler.Text.Quoted
import ProfileCompiler.Value.Basic

/-!
# Values in messages

A value has two written forms.  In its *quoted* form texts stand between quotation marks; in
its *plain* form a text stands bare, but texts inside lists and mappings are still quoted.  A
value with an integer in it that has too many digits has neither form.
-/

namespace ProfileCompiler

/-- The quoted form of a scalar. -/
def Scalar.quoted? : Scalar → Option String
  | .null => some "None"
  | .bool true => some "True"
  | .bool false => some "False"
  | .int n => Text.decimal? n
  | .float x => some x.text
  | .text s => some (Text.quoted s)

/-- The plain form of a scalar. -/
def Scalar.plain? : Scalar → Option String
  | .text s => some s
  | s => s.quoted?

namespace Value

mutual

/-- The quoted form of a value. -/
def quoted? : Value → Option String
  | .scalar s => s.quoted?
  | .list items => (quotedItems? items).map fun parts => "[" ++ Text.join ", " parts ++ "]"
  | .mapping entries =>
    (quotedEntries? entries).map fun parts => "\x7b" ++ Text.join ", " parts ++ "\x7d"

/-- The quoted forms of the items of a list. -/
def quotedItems? : List Value → Option (List String)
  | [] => some []
  | item :: rest => do
    let first ← quoted? item
    let more ← quotedItems? rest
    some (first :: more)

/-- The quoted forms of the entries of a mapping. -/
def quotedEntries? : List (Scalar × Value) → Option (List String)
  | [] => some []
  | (k, v) :: rest => do
    let key ← k.quoted?
    let value ← quoted? v
    let more ← quotedEntries? rest
    some ((key ++ ": " ++ value) :: more)

end

/-- The plain form of a value. -/
def plain? : Value → Option String
  | .scalar s => s.plain?
  | v => v.quoted?

end Value

end ProfileCompiler
