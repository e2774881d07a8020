import ProfileCompiler.Fault
import ProfileCompiler.Value.Printer
import ProfileCompiler.Version.Clause

/-!
# Version ranges

A range is a list of alternatives between `||`; each alternative is a list of clauses that a
version has to meet together.  An alternative is written as terms between blanks:

* a comparison such as `>= 1.0`, blanks after the operator being left out of account;
* a version alone, or one with a wildcard number such as `1.x`;
* `~1.2` and `~>1.2`, which fix the first two numbers, and `^1.2`, which fixes the numbers up
  to the first that is not zero;
* two versions with a hyphen between blanks, which bound the range from both sides.

Each term stands for the texts of some clauses (`Term.clauses`), and these are then read.
-/

namespace ProfileCompiler

/-- The value read as a version. -/
def Version.ofValue (raw : Value) : Except Fault Version := do
  let plain ← Text.written .overlongNumber raw.plain?
  let text := Text.strip plain.toList
  match Version.read? text with
  | some v => if Version.hasOverlongNumber text then .error .overlongNumber else .ok v
  | none => do
    let quoted ← Text.written .overlongNumber raw.quoted?
    .error (.badVersion quoted)

/-- Clauses that a version has to meet together. -/
structure Alternative where
  clauses : List Clause
  /-- What keeps the alternative from being used, if anything does. -/
  fault : Option Fault
deriving Repr

namespace Alternative

/-- The alternative of the clauses that were read, and the first fault among them. -/
def ofClauses : List (Except Fault Clause) → Alternative
  | [] => ⟨[], none⟩
  | .ok c :: rest => { ofClauses rest with clauses := c :: (ofClauses rest).clauses }
  | .error fault :: rest => { ofClauses rest with fault := some fault }

/-- Whether the alternative asks for nothing. -/
def isAny (a : Alternative) : Bool := a.clauses.isEmpty && a.fault.isNone

/-- Whether a version meets all clauses. -/
def accepts (a : Alternative) (v : Version) : Except Fault Bool :=
  match a.fault with
  | some fault => .error fault
  | none => .ok (a.clauses.all fun clause => clause.accepts v)

end Alternative

/-- A range of versions: its text, and its alternatives. -/
structure VersionRange where
  source : String
  alternatives : List Alternative
deriving Repr

namespace Term

/-- The words that stand for any number. -/
def isWildcard (piece : List Char) : Bool :=
  piece == ['x'] || piece == ['X'] || piece == ['*']

/-- A point between pieces. -/
def dotted (pieces : List (List Char)) : List Char :=
  match pieces with
  | [] => []
  | [one] => one
  | one :: more => one ++ '.' :: dotted more

/-- The numbers of a base version; every piece between points has to be one. -/
def numbers (base : List Char) : Except Fault (List Int) :=
  match (Text.pieces (· == '.') base).mapM Text.integer? with
  | some ns => .ok ns
  | none => .error (.badVersion (Text.quoted (String.ofList base)))

/-- The numbers up to an index, the last of them raised by one. -/
def raised (ns : List Int) (index : Nat) : List Int :=
  ns.take index ++ [ns.getD index 0 + 1]

/-- At least the base, and below the base raised at an index. -/
def span (base : List Char) (ns : List Int) (index : Nat) : Except Fault (List (List Char)) := do
  let upper ← Text.written .overlongNumber ((raised ns index).mapM Text.decimal?)
  .ok [['>', '='] ++ base, '<' :: dotted (upper.map String.toList)]

/-- The index of the first number that is not zero, or of the last number. -/
def leading (ns : List Int) : Nat :=
  match ns.findIdx? (· != 0) with
  | some index => index
  | none => ns.length - 1

/-- The base of a tilde term. -/
def tildeBase (term : List Char) : List Char :=
  (term.dropWhile fun c => c == '~' || c == '>').dropWhile (· == '=')

/-- The clauses of a version that stands alone: equality with it, or with the numbers before
its first wildcard. -/
def bare (term : List Char) : List (List Char) :=
  let pieces := Text.pieces (· == '.') term
  if pieces.any isWildcard then
    match pieces.takeWhile fun piece => !isWildcard piece with
    | [] => []
    | fixed => [['=', '='] ++ dotted fixed ++ ['.', '*']]
  else [['=', '='] ++ term]

/-- The texts of the clauses that a term stands for. -/
def clauses (term : List Char) : Except Fault (List (List Char)) :=
  match term with
  | '~' :: '=' :: _ => .ok [term]
  | '~' :: _ => do
    let base := tildeBase term
    let ns ← numbers base
    span base ns (min (ns.length - 1) 1)
  | '^' :: base => do
    let ns ← numbers base
    span base ns (leading ns)
  | '=' :: '=' :: _ => .ok [term]
  | '=' :: _ => .ok ['=' :: term]
  | '<' :: _ | '>' :: _ | '!' :: _ => .ok [term]
  | _ => .ok (bare term)

end Term

namespace VersionRange

/-- The texts between `||`. -/
def alternativeTexts : List Char → List (List Char)
  | [] => [[]]
  | '|' :: '|' :: rest => [] :: alternativeTexts rest
  | c :: rest =>
    match alternativeTexts rest with
    | [] => [[c]]
    | text :: more => (c :: text) :: more

/-- The text without the blanks that follow an operator. -/
def closeUp (afterOperator : Bool) : List Char → List Char
  | [] => []
  | c :: rest =>
    if afterOperator && Text.isBlank c then closeUp true rest
    else c :: closeUp (c == '>' || c == '<' || c == '=') rest

/-- The texts of the clauses of an alternative. -/
def clauseTexts (text : List Char) : Except Fault (List (List Char)) :=
  let text := Text.strip text
  if text.isEmpty || Term.isWildcard text then .ok []
  else
    match Text.words text with
    | [low, ['-'], high] => .ok [['>', '='] ++ low, ['<', '='] ++ high]
    | _ => do
      let parts ← (Text.words (closeUp false text)).mapM Term.clauses
      .ok parts.flatten

/-- The clauses written in texts that may hold several between commas; blank ones are left
out. -/
def readClauses? (texts : List (List Char)) : Option Alternative :=
  let parts := texts.flatMap (Text.pieces (· == ','))
  ((parts.filter fun part => !part.all Text.isBlank).mapM Clause.read?).map
    Alternative.ofClauses

/-- The alternatives of a range text, taken in order.  All terms of an alternative are turned
into the texts of clauses before any of these is read. -/
def alternativesOf (source : String) : List (List Char) → Except Fault (List Alternative)
  | [] => .ok []
  | text :: more => do
    let texts ← clauseTexts text
    match readClauses? texts with
    | none => .error (.badRange (Text.quoted source))
    | some alternative =>
      let rest ← alternativesOf source more
      .ok (alternative :: rest)

/-- The range that a text is. -/
def ofText (source : String) : Except Fault VersionRange := do
  let alternatives ← alternativesOf source (alternativeTexts source.toList)
  .ok ⟨source, alternatives⟩

/-- The range that a value is. -/
def ofValue (raw : Value) : Except Fault VersionRange :=
  Text.written .overlongNumber raw.plain? >>= ofText

/-- Whether a version meets one of the alternatives, taken in order up to the first that it
meets. -/
def meetsOne (v : Version) : List Alternative → Except Fault Bool
  | [] => .ok false
  | a :: rest => do
    if ← a.accepts v then .ok true else meetsOne v rest

/-- Whether a version is in the range. -/
def contains (range : VersionRange) (v : Version) : Except Fault Bool :=
  meetsOne v range.alternatives

/-- The range as shown in messages. -/
def shown (range : VersionRange) : String :=
  "VersionRange(" ++ Text.quoted range.source ++ ")"

end VersionRange

end ProfileCompiler
