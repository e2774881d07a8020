/-!
# Bytes that are UTF-8 text up to a place

`Utf8.extent` tells how many bytes at the start of some bytes are whole characters, and after
how many of them it shows that the bytes are no text.
-/

namespace ProfileCompiler

namespace Text

namespace Utf8

/-- The bytes that follow the first byte of a character: how many there are, and the least and
the greatest value of the first of them. -/
structure Opening where
  more : Nat
  least : Nat
  greatest : Nat
deriving Repr

/-- What a byte opens, if a character starts with it. -/
def opening? (b : UInt8) : Option Opening :=
  let n := b.toNat
  if n < 0x80 then some ⟨0, 0, 0⟩
  else if n < 0xC2 then none
  else if n < 0xE0 then some ⟨1, 0x80, 0xBF⟩
  else if n == 0xE0 then some ⟨2, 0xA0, 0xBF⟩
  else if n == 0xED then some ⟨2, 0x80, 0x9F⟩
  else if n < 0xF0 then some ⟨2, 0x80, 0xBF⟩
  else if n == 0xF0 then some ⟨3, 0x90, 0xBF⟩
  else if n < 0xF4 then some ⟨3, 0x80, 0xBF⟩
  else if n == 0xF4 then some ⟨3, 0x80, 0x8F⟩
  else none

/-- The count of the given bytes that go on as opened, up to as many as there should be. -/
def following (o : Opening) (bytes : List UInt8) : Nat :=
  match bytes.take o.more with
  | [] => 0
  | second :: others =>
    if o.least ≤ second.toNat && second.toNat ≤ o.greatest then
      1 + (others.takeWhile fun b => 0x80 ≤ b.toNat && b.toNat ≤ 0xBF).length
    else 0

/-- How far bytes are text. -/
structure Extent where
  /-- The number of bytes at the start that are whole characters. -/
  valid : Nat
  /-- The number of bytes before the one that shows that the bytes are no text.  There is none
  if the bytes are text or end inside a character. -/
  broken : Option Nat
deriving Repr

/-- How far bytes are text that come after the given number of others. -/
def extentFrom (before : Nat) : Nat → List UInt8 → Extent
  | 0, _ => ⟨before, none⟩
  | _, [] => ⟨before, none⟩
  | fuel + 1, first :: rest =>
    match opening? first with
    | none => ⟨before, some before⟩
    | some o =>
      let count := following o rest
      if count == o.more then extentFrom (before + 1 + o.more) fuel (rest.drop o.more)
      else if count == rest.length then ⟨before, none⟩
      else ⟨before, some (before + 1 + count)⟩

/-- How far bytes are text. -/
def extent (bytes : List UInt8) : Extent := extentFrom 0 bytes.length bytes

end Utf8

end Text

end ProfileCompiler
