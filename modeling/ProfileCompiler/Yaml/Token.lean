import ProfileCompiler.Yaml.Block
import ProfileCompiler.Yaml.Delivery
import ProfileCompiler.Yaml.Directive
import ProfileCompiler.Yaml.Plain
import ProfileCompiler.Yaml.Quoted

/-!
# Tokens of a YAML text

`Token.scan` cuts a text into tokens.  Outside of flow collections the indentation of a line
opens and closes collections: the *margin* is the least column of the content of the innermost
open collection, so that a collection at column `k` has the margin `k + 1`, and the margin is
`0` where none is open.

A colon makes what stands before it on its line a key.  So the place of everything that may
turn out to be a key is kept (`PendingKey`), and the token for the key is put in front of it
once its colon is found.

Where a text cannot be cut any further, the tokens before that are still of use, except those
that a key could have been put in front of (`Cut`).
-/

namespace ProfileCompiler

namespace Yaml

/-- A token. -/
inductive Token where
  | directive (d : Directive)
  | documentStart
  | documentEnd
  | blockSequenceStart
  | blockMappingStart
  | blockEnd
  | flowSequenceStart
  | flowSequenceEnd
  | flowMappingStart
  | flowMappingEnd
  | blockEntry
  | flowEntry
  | key
  | value
  | tag (t : Tag)
  /-- A name that is given to a node. -/
  | anchor
  /-- A name that stands for another node. -/
  | alias
  | scalar (plain : Bool) (text : List Char)
  | streamEnd
deriving DecidableEq, Repr, Inhabited

/-- Something that may turn out to be a key. -/
structure PendingKey where
  /-- The number of tokens before it. -/
  position : Nat
  /-- Nothing else than a key can stand there. -/
  required : Bool
  index : Nat
  line : Nat
  column : Nat
deriving Repr

/-- How far a text has been cut. -/
structure Scan where
  cursor : Cursor
  /-- The tokens so far, the last one first. -/
  tokens : List Token
  /-- The number of tokens so far. -/
  count : Nat
  margin : Nat
  /-- The margins of the outer collections, the innermost first. -/
  margins : List Nat
  /-- A key may start here. -/
  keyAllowed : Bool
  pending : Option PendingKey
  /-- What may be a key outside of the open flow collections, the innermost first. -/
  outer : List (Option PendingKey)
deriving Repr

namespace Scan

/-- The start of a text. -/
def start (text : List Char) : Scan := ⟨.start text, [], 0, 0, [], true, none, []⟩

/-- Whether a flow collection is open. -/
def inFlow (s : Scan) : Bool := !s.outer.isEmpty

/-- One more token. -/
def push (t : Token) (s : Scan) : Scan := { s with tokens := t :: s.tokens, count := s.count + 1 }

/-- The cursor moved over a number of characters. -/
def pass (n : Nat) (s : Scan) : Scan := { s with cursor := s.cursor.skip n }

/-- Whether a key may start from here on. -/
def allowKey (allowed : Bool) (s : Scan) : Scan := { s with keyAllowed := allowed }

/-- A token put behind the given number of tokens. -/
def insert (position : Nat) (t : Token) (s : Scan) : Scan :=
  let behind := s.count - position
  { s with
    tokens := s.tokens.take behind ++ t :: s.tokens.drop behind, count := s.count + 1 }

/-- Blanks, comments and line ends passed over.  After a line end outside of flow collections
a key may start. -/
def passGap : Nat → Scan → Scan
  | 0, s => s
  | fuel + 1, s =>
    match s.cursor.passComment.passBreak with
    | ([], c) => { s with cursor := c }
    | (_, c) => passGap fuel { s with cursor := c, keyAllowed := s.keyAllowed || !s.inFlow }

/-- The gap before the next token passed over, also a byte order mark at the very start. -/
def toToken (s : Scan) : Scan :=
  let c := s.cursor
  let c := if c.index == 0 && c.peek == some byteOrderMark then c.next else c
  passGap c.steps { s with cursor := c }

/-- A pending key is given up; it must not be one that is required. -/
def dropKey (s : Scan) : Except Halt Scan :=
  match s.pending with
  | some k => if k.required then s.cursor.halt .badYaml else .ok { s with pending := none }
  | none => .ok s

/-- Whether a pending key is too far back: on another line, or more than 1024 characters. -/
def isStale (s : Scan) (k : PendingKey) : Bool :=
  k.line != s.cursor.line || 1024 < s.cursor.index - k.index

/-- What remains of a pending key once the place has moved on. -/
def refresh (s : Scan) (k : Option PendingKey) : Except Halt (Option PendingKey) :=
  match k with
  | some k =>
    if s.isStale k then if k.required then s.cursor.halt .badYaml else .ok none
    else .ok (some k)
  | none => .ok none

/-- Pending keys that are too far back are given up. -/
def dropStale (s : Scan) : Except Halt Scan := do
  let outer ← s.outer.mapM s.refresh
  let pending ← s.refresh s.pending
  .ok { s with pending := pending, outer := outer }

/-- The place is remembered as that of a possible key. -/
def saveKey (s : Scan) : Except Halt Scan :=
  if s.keyAllowed then do
    let c := s.cursor
    let required := !s.inFlow && s.margin == c.column + 1
    let s ← s.dropKey
    .ok { s with pending := some ⟨s.count, required, c.index, c.line, c.column⟩ }
  else .ok s

/-- The collections closed whose margin is greater than the given one. -/
def closeTo (margin : Nat) : List Nat → Scan → Scan
  | [], s => s
  | m :: rest, s =>
    if margin < s.margin then
      closeTo margin rest ({ s with margin := m, margins := rest }.push .blockEnd)
    else s

/-- The collections closed that do not reach to the given margin.  Flow collections are not
closed by indentation. -/
def unwind (margin : Nat) (s : Scan) : Scan :=
  if s.inFlow then s else closeTo margin s.margins s

/-- The margin moved to a column, and whether a collection is opened by that. -/
def openAt (column : Nat) (s : Scan) : Bool × Scan :=
  if s.margin ≤ column then
    (true, { s with margin := column + 1, margins := s.margin :: s.margins })
  else (false, s)

/-- A mark between documents. -/
def documentMark (t : Token) (s : Scan) : Except Halt Scan := do
  let s ← (s.unwind 0).dropKey
  .ok (((s.allowKey false).pass 3).push t)

/-- The start of a flow collection. -/
def flowStart (t : Token) (s : Scan) : Except Halt Scan := do
  let s ← s.saveKey
  let s := { s with outer := s.pending :: s.outer, pending := none }
  .ok (((s.allowKey true).pass 1).push t)

/-- The end of a flow collection, which must be open. -/
def flowEnd (t : Token) (s : Scan) : Except Halt Scan := do
  let s ← s.dropKey
  match s.outer with
  | [] => s.cursor.halt .badYaml
  | k :: outer =>
    .ok ((({ s with pending := k, outer := outer }.allowKey false).pass 1).push t)

/-- A comma between the parts of a flow collection. -/
def flowComma (s : Scan) : Except Halt Scan := do
  let s ← (s.allowKey true).dropKey
  .ok ((s.pass 1).push .flowEntry)

/-- A collection opened at a column by the given token, unless it is open already. -/
def opened (column : Nat) (t : Token) (s : Scan) : Scan :=
  let (new, s) := s.openAt column
  if new then s.push t else s

/-- A dash before an item. -/
def dash (s : Scan) : Except Halt Scan :=
  if !s.inFlow && !s.keyAllowed then s.cursor.halt .badYaml
  else do
    let s := if s.inFlow then s else s.opened s.cursor.column .blockSequenceStart
    let s ← (s.allowKey true).dropKey
    .ok ((s.pass 1).push .blockEntry)

/-- A question mark before a key. -/
def questionMark (s : Scan) : Except Halt Scan :=
  if !s.inFlow && !s.keyAllowed then s.cursor.halt .badYaml
  else do
    let s := if s.inFlow then s else s.opened s.cursor.column .blockMappingStart
    let s ← (s.allowKey (!s.inFlow)).dropKey
    .ok ((s.pass 1).push .key)

/-- A colon before a value.  What was pending becomes its key. -/
def colon (s : Scan) : Except Halt Scan :=
  match s.pending with
  | some k =>
    let s := { s with pending := none }.insert k.position .key
    let (new, s) := if s.inFlow then (false, s) else s.openAt k.column
    let s := if new then s.insert k.position .blockMappingStart else s
    .ok (((s.allowKey false).pass 1).push .value)
  | none =>
    if !s.inFlow && !s.keyAllowed then s.cursor.halt .badYaml
    else
      let s := if s.inFlow then s else s.opened s.cursor.column .blockMappingStart
      .ok (((s.allowKey (!s.inFlow)).pass 1).push .value)

/-- A directive. -/
def directive (s : Scan) : Except Halt Scan := do
  let s ← (s.unwind 0).dropKey
  let (d, c) ← Directive.scan s.cursor
  .ok (({ s with cursor := c }.allowKey false).push (.directive d))

/-- A tag. -/
def tag (s : Scan) : Except Halt Scan := do
  let s ← s.saveKey
  let (t, c) ← Tag.scan s.cursor
  .ok (({ s with cursor := c }.allowKey false).push (.tag t))

/-- Whether the name of a node ends here. -/
def endsNodeName : Option Char → Bool
  | some c => endsWord (some c) || "?:,]\x7d%@\x60".toList.contains c
  | none => true

/-- A mark with the name of a node. -/
def nodeName (t : Token) (s : Scan) : Except Halt Scan := do
  let s ← s.saveKey
  let (name, c) := s.cursor.next.span Tag.isHandleChar
  if name.isEmpty || !endsNodeName c.peek then c.halt .badYaml
  .ok (({ s with cursor := c }.allowKey false).push t)

/-- A block scalar. -/
def blockScalar (folded : Bool) (s : Scan) : Except Halt Scan := do
  let s ← (s.allowKey true).dropKey
  let (text, c) ← Block.scan folded s.margin s.cursor
  .ok ({ s with cursor := c }.push (.scalar false text))

/-- A quoted scalar. -/
def quotedScalar (mark : Char) (s : Scan) : Except Halt Scan := do
  let s ← s.saveKey
  let (text, c) ← Quoted.scan mark s.cursor
  .ok (({ s with cursor := c }.allowKey false).push (.scalar false text))

/-- A plain scalar.  After a line end a key may start. -/
def plainScalar (s : Scan) : Except Halt Scan := do
  let s ← s.saveKey
  let p := Plain.scan s.inFlow s.margin s.cursor
  .ok (({ s with cursor := p.cursor }.allowKey p.broken).push (.scalar true p.text))

/-- The next token, which starts with the given character. -/
def token (ch : Char) (s : Scan) : Except Halt Scan :=
  let c := s.cursor
  let wordEnds := endsWord c.next.peek
  if c.column == 0 && ch == '%' then s.directive
  else if c.column == 0 && c.atMark '-' then s.documentMark .documentStart
  else if c.column == 0 && c.atMark '.' then s.documentMark .documentEnd
  else if ch == '[' then s.flowStart .flowSequenceStart
  else if ch == '\x7b' then s.flowStart .flowMappingStart
  else if ch == ']' then s.flowEnd .flowSequenceEnd
  else if ch == '\x7d' then s.flowEnd .flowMappingEnd
  else if ch == ',' then s.flowComma
  else if ch == '-' && wordEnds then s.dash
  else if ch == '?' && (s.inFlow || wordEnds) then s.questionMark
  else if ch == ':' && (s.inFlow || wordEnds) then s.colon
  else if ch == '*' then s.nodeName .alias
  else if ch == '&' then s.nodeName .anchor
  else if ch == '!' then s.tag
  else if ch == '|' && !s.inFlow then s.blockScalar false
  else if ch == '>' && !s.inFlow then s.blockScalar true
  else if ch == '\'' || ch == '"' then s.quotedScalar ch
  else if Plain.starts s.inFlow c then s.plainScalar
  else c.halt .badYaml

/-- One token more, and those that its indentation brings with it; at the end of the text the
last one. -/
def fetch (s : Scan) : Except Halt Scan := do
  let s ← s.toToken.dropStale
  let s := s.unwind (s.cursor.column + 1)
  match s.cursor.peek with
  | none => do
    let s ← (s.unwind 0).dropKey
    .ok (s.push .streamEnd)
  | some ch => s.token ch

/-- One token more of a text that may break off. -/
def fetchBefore (breach : Option Breach) (s : Scan) : Except ReadFault Scan :=
  match breach, s.fetch with
  | some b, .ok s => if b.index ≤ s.cursor.index then .error b.fault else .ok s
  | some b, .error h => .error (if b.index ≤ h.index then b.fault else h.fault)
  | none, .ok s => .ok s
  | none, .error h => .error h.fault

/-- The tokens that no key can be put in front of any more. -/
def settled (s : Scan) : List Token :=
  let live := ((s.pending :: s.outer).filterMap id).filter fun k => !s.isStale k
  s.tokens.reverse.take (live.foldl (fun n k => min n k.position) s.count)

end Scan

/-- What cutting a text gives: the tokens that can be used, and the fault that ended the
cutting if it did not come to the end of the text. -/
structure Cut where
  tokens : List Token
  fault : Option ReadFault
deriving Repr

/-- The tokens from a place on to the end of the text. -/
def Scan.finish (breach : Option Breach) : Nat → Scan → Cut
  | 0, s => ⟨s.settled, some .badYaml⟩
  | fuel + 1, s =>
    match s.fetchBefore breach with
    | .ok s =>
      if s.tokens.head? == some .streamEnd then ⟨s.tokens.reverse, none⟩ else finish breach fuel s
    | .error fault => ⟨s.settled, some fault⟩

/-- The tokens of a text.  Each takes at least one character. -/
def Token.scan (d : Delivery) : Cut := (Scan.start d.text).finish d.breach (d.text.length + 1)

end Yaml

end ProfileCompiler
