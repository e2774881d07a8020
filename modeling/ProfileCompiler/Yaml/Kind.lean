import ProfileCompiler.Value.Basic
import ProfileCompiler.Yaml.Tag

/-!
# The kinds of nodes

A node of a YAML document is of a kind, which its tag announces or its spelling shows
(`NodeKind.ofSpelling`).  `NodeKind.read` makes a scalar of a text as the kind says.

By its spelling a scalar is null, a truth value, an integer, a number with a point, or else a
text.  Integers are decimal, binary after `0b`, hexadecimal after `0x`, octal after a zero, or
written in sixties with colons; underscores between digits count for nothing.  A number with a
point may have an exponent, whose sign must be written.  A text of a kind that a tag announces
may be spelled more freely.
-/

namespace ProfileCompiler

namespace Yaml

/-- The kind of a node. -/
inductive NodeKind where
  | null
  | truth
  | integer
  | fraction
  | text
  | sequence
  | mapping
  /-- The key of the value that stands for a whole mapping. -/
  | standIn
  /-- The key of a mapping that is to be taken in. -/
  | inclusion
  /-- Any kind that no value belongs to. -/
  | unknown
deriving DecidableEq, Repr, Inhabited

namespace NodeKind

/-! ## Spellings -/

/-- The spellings of null. -/
def nullWords : List String := ["", "~", "null", "Null", "NULL"]

/-- The spellings of truth values. -/
def truthWords : List String :=
  ["yes", "Yes", "YES", "true", "True", "TRUE", "on", "On", "ON",
    "no", "No", "NO", "false", "False", "FALSE", "off", "Off", "OFF"]

/-- The spellings of infinity after the point. -/
def infinityWords : List String := ["inf", "Inf", "INF"]

/-- The spellings of what is no number. -/
def noNumberWords : List String := [".nan", ".NaN", ".NAN"]

/-- A digit or an underscore. -/
def isDigitOrLine (c : Char) : Bool := c.isDigit || c == '_'

/-- A digit of the given base or an underscore. -/
def isBaseDigit (base : Nat) (c : Char) : Bool :=
  c == '_' || (c.toNat < 0x80 && (Text.baseDigit? base c).isSome)

/-- One or two digits that count less than sixty. -/
def isSixtieth : List Char → Bool
  | [a] => a.isDigit
  | [a, b] => '0' ≤ a && a ≤ '5' && b.isDigit
  | _ => false

/-- A digit, then digits and underscores. -/
def isNumeral : List Char → Bool
  | d :: rest => d.isDigit && rest.all isDigitOrLine
  | [] => false

/-- A numeral and after a colon each, one or more parts that count less than sixty. -/
def isSixties (cs : List Char) : Bool :=
  match Text.pieces (· == ':') cs with
  | first :: second :: more => isNumeral first && (second :: more).all isSixtieth
  | _ => false

/-- The spelling of an integer without its sign. -/
def spellsNatural : List Char → Bool
  | '0' :: [] => true
  | '0' :: 'b' :: d :: digits => (d :: digits).all (isBaseDigit 2)
  | '0' :: 'x' :: d :: digits => (d :: digits).all (isBaseDigit 16)
  | '0' :: d :: digits => (d :: digits).all (isBaseDigit 8)
  | cs => isNumeral cs || isSixties cs

/-- An exponent: a letter, a sign and digits; or nothing. -/
def isExponent : List Char → Bool
  | [] => true
  | e :: s :: d :: digits =>
    (e == 'e' || e == 'E') && (s == '-' || s == '+') && (d :: digits).all Char.isDigit
  | _ => false

/-- The spelling of a number with a point. -/
def spellsFraction (cs : List Char) : Bool :=
  let body := (Text.signed cs).2
  let whole := body.takeWhile (· != '.')
  match body.drop whole.length with
  | '.' :: rest =>
    let decimals := rest.takeWhile isDigitOrLine
    let after := rest.drop decimals.length
    if whole.isEmpty then
      infinityWords.contains (String.ofList rest) ||
        (body.length == cs.length && isNumeral decimals && isExponent after)
    else (isNumeral whole && isExponent after) || (isSixties whole && after.isEmpty)
  | _ => false

/-- The text without one line end at its end. -/
def withoutLineEnd (cs : List Char) : List Char :=
  if cs.getLast? == some '\n' && 1 < cs.length then cs.dropLast else cs

/-- The kind of a scalar by its spelling. -/
def ofSpelling (cs : List Char) : NodeKind :=
  let cs := withoutLineEnd cs
  let s := String.ofList cs
  if nullWords.contains s then .null
  else if truthWords.contains s then .truth
  else if noNumberWords.contains s || spellsFraction cs then .fraction
  else if spellsNatural (Text.signed cs).2 then .integer
  else if s == "=" then .standIn
  else if s == "<<" then .inclusion
  else .text

/-! ## Tags -/

/-- The kinds that everybody's tags announce. -/
def common : List (String × NodeKind) :=
  [("null", .null), ("bool", .truth), ("int", .integer), ("float", .fraction), ("str", .text),
    ("seq", .sequence), ("map", .mapping), ("value", .standIn), ("merge", .inclusion)]

/-- The kind that the name of a tag announces. -/
def ofName (name : List Char) : NodeKind :=
  if Tag.commonStart.isPrefixOf name then
    (common.lookup (String.ofList (name.drop Tag.commonStart.length))).getD .unknown
  else .unknown

/-! ## Reading -/

/-- The text without underscores. -/
def plainDigits (cs : List Char) : List Char := cs.filter (· != '_')

/-- The truth value of a word in any letter case. -/
def readTruth (cs : List Char) : Except ReadFault Bool :=
  let word := String.ofList (Text.lower cs)
  if ["yes", "true", "on"].contains word then .ok true
  else if ["no", "false", "off"].contains word then .ok false
  else .error (.noTruth word)

/-- The integer in a base. -/
def readBased (base : Nat) (cs : List Char) : Except ReadFault Int :=
  match if base = 10 then Text.integer? cs else Text.integerIn? base cs with
  | some n => .ok n
  | none => .error .badNumber

/-- The integer without a sign: the start shows its base. -/
def readNatural (cs : List Char) : Except ReadFault Int :=
  match cs with
  | [] => .error .noNumber
  | '0' :: [] => .ok 0
  | '0' :: 'b' :: digits => readBased 2 digits
  | '0' :: 'x' :: digits => readBased 16 digits
  | '0' :: _ => readBased 8 cs
  | _ =>
    if cs.contains ':' then do
      let parts ← (Text.pieces (· == ':') cs).mapM (readBased 10)
      .ok (parts.foldl (fun n p => 60 * n + p) 0)
    else readBased 10 cs

/-- The integer that a text stands for. -/
def readInteger (cs : List Char) : Except ReadFault Int :=
  let (negative, body) := Text.signed (plainDigits cs)
  (readNatural body).map fun n => if negative then -n else n

/-- The sum or product of two numbers, rounded. -/
def rounded (op : Rat → Rat → Rat) (x y : Binary64) : Binary64 :=
  match x.quantity, y.quantity with
  | .finite p, .finite q => .ofRat (op p q)
  | .infinite negative, _ => .infinite negative
  | _, .infinite negative => .infinite negative

/-- The number with the other sign. -/
def negated : Binary64 → Binary64
  | .finite negative significand exponent => .finite (!negative) significand exponent
  | .infinite negative => .infinite (!negative)

/-- The parts of a number in sixties added up from the last to the first.  What a part counts
for must not be too large for a number itself. -/
def addSixties : Nat → Binary64 → List Binary64 → Except ReadFault Binary64
  | _, total, [] => .ok total
  | unit, total, part :: rest =>
    match Binary64.ofRat unit with
    | .infinite _ => .error .beyondRange
    | factor => addSixties (60 * unit) (rounded (· + ·) total (rounded (· * ·) part factor)) rest

/-- A part of a number with a point. -/
def readPart (cs : List Char) : Except ReadFault Binary64 :=
  match Text.fraction? cs with
  | some x => .ok x
  | none => .error .badNumber

/-- The number with a point that a text stands for. -/
def readFraction (cs : List Char) : Except ReadFault Binary64 := do
  let cs := Text.lower (plainDigits cs)
  let (negative, body) := Text.signed cs
  if cs.isEmpty then .error .noNumber
  else if body == ".inf".toList then .ok (.infinite negative)
  else if body == ".nan".toList then .error .badYaml
  else
    let x ←
      if body.contains ':' then do
        let parts ← (Text.pieces (· == ':') body).mapM readPart
        addSixties 1 .zero parts.reverse
      else readPart body
    .ok (if negative then negated x else x)

/-- The scalar that a text of a kind stands for. -/
def read (kind : NodeKind) (cs : List Char) : Except ReadFault Scalar :=
  match kind with
  | .null => .ok .null
  | .truth => (readTruth cs).map .bool
  | .integer => (readInteger cs).map .int
  | .fraction => (readFraction cs).map .float
  | .text => .ok (.text (String.ofList cs))
  | _ => .error .badYaml

end NodeKind

end Yaml

end ProfileCompiler
