import ProfileCompiler.Text.Pieces

/-!
# Paths

A path is a list of names, either from the root of the file system or from the directory that is
worked in.  Empty names and single dots count for nothing; two dots are kept, since what they lead
to depends on the directories there are.
-/

namespace ProfileCompiler

/-- A path. -/
structure Path where
  absolute : Bool
  parts : List String
deriving DecidableEq, Repr, Inhabited

namespace Path

/-- Whether a name counts in a path. -/
def counts (name : List Char) : Bool := !name.isEmpty && name != ['.']

/-- The path that a text stands for. -/
def ofText (s : String) : Path where
  absolute := s.toList.head? == some '/'
  parts := ((Text.pieces (· == '/') s.toList).filter counts).map String.ofList

/-- The text of a path. -/
def text (p : Path) : String :=
  let names := Text.join "/" p.parts
  if p.absolute then "/" ++ names else if p.parts.isEmpty then "." else names

/-- A path seen from another one; an absolute path stays. -/
def join (p q : Path) : Path :=
  if q.absolute then q else { p with parts := p.parts ++ q.parts }

/-- The path to a name in the directory of a path. -/
def child (p : Path) (name : String) : Path := { p with parts := p.parts ++ [name] }

/-- The end of a name from its last dot on, if something stands before and after that dot. -/
def suffixOf (name : List Char) : List Char :=
  let after := name.reverse.takeWhile (· != '.')
  let before := name.length - after.length - 1
  if after.isEmpty || before = 0 || after.length = name.length then []
  else '.' :: after.reverse

/-- The end of the last name from its last dot on. -/
def suffix (p : Path) : String :=
  String.ofList (suffixOf ((p.parts.getLast?.getD "").toList))

/-- Names compared one after the other, letter by letter. -/
def before (xs ys : List String) : Bool := !List.lex ys xs (fun x y => decide (x < y))

end Path

end ProfileCompiler
