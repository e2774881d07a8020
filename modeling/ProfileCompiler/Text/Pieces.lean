/-!
# Blanks, words and pieces of a text

Texts are cut as lists of characters.  `Text.pieces` cuts at every separating character and
keeps empty pieces; `Text.words` cuts at blanks and drops them.
-/

namespace ProfileCompiler

namespace Text

/-- White space: the blanks of ASCII, the information separators, and the space characters of
the other scripts. -/
def isBlank (c : Char) : Bool :=
  let n := c.toNat
  (0x09 ≤ n && n ≤ 0x0D) || (0x1C ≤ n && n ≤ 0x20) || n == 0x85 || n == 0xA0 || n == 0x1680 ||
    (0x2000 ≤ n && n ≤ 0x200A) || n == 0x2028 || n == 0x2029 || n == 0x202F || n == 0x205F ||
    n == 0x3000

/-- The text without the blanks at its start and end. -/
def strip (cs : List Char) : List Char :=
  ((cs.dropWhile isBlank).reverse.dropWhile isBlank).reverse

/-- The pieces between separating characters; there is always at least one. -/
def pieces (separates : Char → Bool) : List Char → List (List Char)
  | [] => [[]]
  | c :: rest =>
    if separates c then [] :: pieces separates rest
    else
      match pieces separates rest with
      | [] => [[c]]
      | piece :: more => (c :: piece) :: more

/-- The nonempty pieces between blanks. -/
def words (cs : List Char) : List (List Char) :=
  (pieces isBlank cs).filter fun piece => !piece.isEmpty

/-- The texts with a separator between them. -/
def join (separator : String) : List String → String
  | [] => ""
  | [one] => one
  | one :: more => one ++ separator ++ join separator more

/-- Whether the first text starts the second. -/
def startsWith (start : List Char) (cs : List Char) : Bool :=
  start.isPrefixOf cs

/-- Whether the first text is a part of the second. -/
def contains (part : List Char) : List Char → Bool
  | [] => part.isEmpty
  | c :: rest => part.isPrefixOf (c :: rest) || contains part rest

/-- The text after a given start, if it starts so. -/
def after? (start : String) (s : String) : Option String :=
  if start.toList.isPrefixOf s.toList then
    some (String.ofList (s.toList.drop start.toList.length))
  else none

/-- The lower-case forms of the letters of ASCII; other characters stay. -/
def lower (cs : List Char) : List Char := cs.map Char.toLower

/-- The lower-case forms, also of the one other character whose lower-case form belongs to
ASCII: the sign for kelvin. -/
def small (cs : List Char) : List Char :=
  cs.map fun c => if c == '\u212a' then 'k' else c.toLower

end Text

end ProfileCompiler
