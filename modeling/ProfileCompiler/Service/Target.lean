import ProfileCompiler.Text.Numeral

/-!
# Targets of requests

The target of a request is an address, of which only the path counts: a scheme, a host, a query
and a fragment are dropped.  Dots as names in the path are followed first, and then characters
that are written as percent signs with two digits are put in, twice over.
-/

namespace ProfileCompiler

namespace Service

namespace Target

/-- The greatest number of characters in a target. -/
def limit : Nat := 65536

/-- The letters of a scheme after the first. -/
def isSchemeChar (c : Char) : Bool := c.isAlphanum || c == '+' || c == '.' || c == '-'

/-- The scheme in front of a colon, if there is one, and the text after it. -/
def scheme (cs : List Char) : List Char × List Char :=
  let name := cs.takeWhile isSchemeChar
  match cs.drop name.length with
  | ':' :: rest => if name.head?.all Char.isAlpha then (name, rest) else ([], cs)
  | _ => ([], cs)

/-- The host after two slashes, if there is one, and the text after it. -/
def host : List Char → List Char × List Char
  | '/' :: '/' :: rest =>
    let ends (c : Char) : Bool := c == '/' || c == '?' || c == '#'
    (rest.takeWhile fun c => !ends c, rest.dropWhile fun c => !ends c)
  | cs => ([], cs)

/-- A single dot leads nowhere, and two dots lead back. -/
def step (done : List (List Char)) (name : List Char) : List (List Char) :=
  if name == ['.'] then done
  else if name == ['.', '.'] then if done == [[]] then done else done.dropLast
  else done ++ [name]

/-- The path in which dots as names have been followed. -/
def normalized (cs : List Char) : List Char :=
  let names := (Text.pieces (· == '/') cs).foldl step []
  ['/'].intercalate names

/-- The character of a byte by itself.  Bytes of longer characters are in no path of the
service, so it does not matter which of these they are. -/
def charOf (byte : Nat) : Char := if byte < 0x80 then Char.ofNat byte else '\ufffd'

/-- The text with the characters that are written as percent signs with two digits. -/
def decoded : List Char → List Char
  | '%' :: a :: b :: rest =>
    match Text.hexValue? a, Text.hexValue? b with
    | some x, some y => charOf (16 * x + y) :: decoded rest
    | _, _ => '%' :: decoded (a :: b :: rest)
  | c :: rest => c :: decoded rest
  | [] => []

/-- The path that a target leads to, if the target is an address.  Without a host the path
must not start with two slashes, and without a scheme besides not with a colon. -/
def path? (target : String) : Option String :=
  let cs := target.toList
  let (scheme, rest) := scheme cs
  let (host, rest) := host rest
  let path := rest.takeWhile fun c => c != '?' && c != '#'
  let isWritable (c : Char) : Bool := 0x80 ≤ c.toNat || (0x20 ≤ c.toNat && c.toNat < 0x7F)
  let isBare := scheme.isEmpty && host.isEmpty
  if limit < cs.length || !cs.all isWritable then none
  else if isBare && (['/', '/'].isPrefixOf path || path.head? == some ':') then none
  else
    let path :=
      if scheme.isEmpty || host.isEmpty then '/' :: path.dropWhile (· == '/') else path
    let path := normalized path
    let path := if path.isEmpty then ['/'] else path
    some (String.ofList (decoded (decoded path)))

end Target

end Service

end ProfileCompiler
