import ProfileCompiler.Yaml.Cursor

/-!
# How the text of a file is delivered

The text of a file is delivered in portions of `Delivery.portion` characters, the first two of
them at once and every further one when work on the text gets to it.  So a file with a
character in it that must not occur, or with bytes that are no text, may turn out to be broken
some other way before.  The bytes are made characters in blocks of `Delivery.block` bytes.
-/

namespace ProfileCompiler

namespace Yaml

/-- What comes to light when work gets to a place in a text. -/
structure Breach where
  index : Nat
  fault : ReadFault
deriving Repr

/-- A text as far as it can be delivered, with the place where that ends early, if it does. -/
structure Delivery where
  text : List Char
  breach : Option Breach
deriving Repr

namespace Delivery

/-- The number of characters in a portion. -/
def portion : Nat := 4096

/-- The number of bytes in a block. -/
def block : Nat := 8192

/-- A text of which only the given number of portions can be delivered. -/
def ofPortions (text : List Char) (portions : Option Nat) : Except ReadFault Delivery :=
  let late := portions.map fun n => Breach.mk (n * portion) .undecodable
  match portions with
  | some 0 | some 1 => .error .undecodable
  | _ =>
    let allowed := (text.takeWhile isAllowed).length
    if allowed == text.length then .ok ⟨text, late⟩
    else if allowed < 2 * portion then .error .badYaml
    else
      let index := allowed / portion * portion
      match late with
      | some b => .ok ⟨text, some (if b.index ≤ index then b else ⟨index, .badYaml⟩)⟩
      | none => .ok ⟨text, some ⟨index, .badYaml⟩⟩

/-- A text that can be delivered as far as its characters are allowed. -/
def ofText (text : List Char) : Except ReadFault Delivery := ofPortions text none

end Delivery

end Yaml

end ProfileCompiler
