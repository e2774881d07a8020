import ProfileCompiler.Text.Numeral
import ProfileCompiler.Version.Basic

/-!
# Reading versions

The reader takes the usual spellings: an initial `v`, letters of either case, `alpha`, `c`,
`pre`, `rev` and the like, separators before and after the letters of a part, and numbers left
out where they are zero.  Only ASCII digits count.  The text is read from left to right, each
part taking as much as it can.
-/

namespace ProfileCompiler

namespace Version

/-- The value of a digit. -/
def digit (c : Char) : Nat := c.toNat - 48

/-- The number that continues `n`, and what follows it. -/
def number (n : Nat) : List Char → Nat × List Char
  | [] => (n, [])
  | c :: rest => if c.isDigit then number (10 * n + digit c) rest else (n, c :: rest)

/-- The release whose current number continues `n`, and what follows it.  A point belongs to
the release when a digit follows. -/
def releaseFrom (n : Nat) : List Char → List Nat × List Char
  | [] => ([n], [])
  | '.' :: d :: rest =>
    if d.isDigit then
      let (more, after) := releaseFrom (digit d) rest
      (n :: more, after)
    else ([n], '.' :: d :: rest)
  | c :: rest => if c.isDigit then releaseFrom (10 * n + digit c) rest else ([n], c :: rest)

/-- A separator between the parts of a version. -/
def isSeparator (c : Char) : Bool := c == '-' || c == '_' || c == '.'

/-- The text after one separator, if there is one. -/
def dropSeparator : List Char → List Char
  | [] => []
  | c :: rest => if isSeparator c then rest else c :: rest

/-- The first of the given words that starts the text, with what follows it. -/
def word? {α : Type} : List (String × α) → List Char → Option (α × List Char)
  | [], _ => none
  | (word, a) :: more, cs =>
    if word.toList.isPrefixOf cs then some (a, cs.drop word.toList.length) else word? more cs

/-- The number after the letters of a part: a separator may stand before it, and it is zero if
left out. -/
def countAfter (cs : List Char) : Nat × List Char :=
  number 0 (dropSeparator cs)

/-- The letters of the pre-release phases. -/
def phaseWords : List (String × Phase) :=
  [("alpha", .alpha), ("a", .alpha), ("beta", .beta), ("b", .beta), ("preview", .candidate),
    ("pre", .candidate), ("c", .candidate), ("rc", .candidate)]

/-- The pre-release part. -/
def readPre (cs : List Char) : Option (Phase × Nat) × List Char :=
  match word? phaseWords (dropSeparator cs) with
  | some (phase, rest) =>
    let (n, after) := countAfter rest
    (some (phase, n), after)
  | none => (none, cs)

/-- A part of letters and a number. -/
def readCounted (letters : List (String × Unit)) (cs : List Char) : Option Nat × List Char :=
  match word? letters (dropSeparator cs) with
  | some (_, rest) =>
    let (n, after) := countAfter rest
    (some n, after)
  | none => (none, cs)

/-- The post-release part: a hyphen and a number, or letters. -/
def readPost (cs : List Char) : Option Nat × List Char :=
  match cs with
  | '-' :: d :: rest =>
    if d.isDigit then
      let (n, after) := number (digit d) rest
      (some n, after)
    else readCounted [("post", ()), ("rev", ()), ("r", ())] cs
  | _ => readCounted [("post", ()), ("rev", ()), ("r", ())] cs

/-- The development part. -/
def readDev (cs : List Char) : Option Nat × List Char := readCounted [("dev", ())] cs

/-- A character of a local part, after lower-casing. -/
def isLocalChar (c : Char) : Bool := c.isDigit || ('a' ≤ c && c ≤ 'z')

/-- A local part. -/
def localPart? (cs : List Char) : Option LocalPart :=
  if cs.isEmpty || !cs.all isLocalChar then none
  else if cs.all Char.isDigit then some (.number (number 0 cs).1)
  else some (.word cs)

/-- The local label up to the end of the text. -/
def readLocal? : List Char → Option (List LocalPart)
  | [] => some []
  | '+' :: rest => (Text.pieces isSeparator rest).mapM localPart?
  | _ => none

/-- The epoch and the release at the start of a text in lower case. -/
def readBase? (cs : List Char) : Option (Nat × List Nat × List Char) :=
  let cs :=
    match cs with
    | 'v' :: rest => rest
    | cs => cs
  match cs with
  | [] => none
  | c :: rest =>
    if c.isDigit then
      match number (digit c) rest with
      | (epoch, '!' :: d :: after) =>
        if d.isDigit then
          let (release, after) := releaseFrom (digit d) after
          some (epoch, release, after)
        else none
      | _ =>
        let (release, after) := releaseFrom (digit c) rest
        some (0, release, after)
    else none

/-- Whether a number of the version in a text has more digits than can be read.  In the local
label digits between letters are no number. -/
def hasOverlongNumber (cs : List Char) : Bool :=
  let main := cs.takeWhile (· != '+')
  let label := Text.pieces isSeparator (cs.drop (main.length + 1))
  ((Text.pieces (fun c => !c.isDigit) main).any Text.isOverlong) ||
    label.any fun piece => piece.all Char.isDigit && Text.isOverlong piece

/-- The version that a text is. -/
def read? (cs : List Char) : Option Version := do
  let (epoch, release, cs) ← readBase? (Text.lower cs)
  let (pre, cs) := readPre cs
  let (post, cs) := readPost cs
  let (dev, cs) := readDev cs
  let localParts ← readLocal? cs
  some { epoch, release, pre, post, dev, localParts }

end Version

end ProfileCompiler
