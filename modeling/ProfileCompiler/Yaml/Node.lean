import ProfileCompiler.Yaml.Kind
import ProfileCompiler.Yaml.Token

/-!
# The tree of a YAML document

`Node.ofCut` reads the tokens of a text that holds at most one document.  A part that is left
out is an empty scalar.  The kind of every node is settled here, by its tag or else by its
spelling.

Tokens may be out of order, or the text may have been cut too short.  Which of the two it is
depends on which token is looked at first, so no token is looked at before it is needed.
-/

namespace ProfileCompiler

namespace Yaml

/-- A part of a document. -/
inductive Node where
  | scalar (kind : NodeKind) (text : List Char)
  | sequence (kind : NodeKind) (items : List Node)
  | mapping (kind : NodeKind) (entries : List (Node × Node))
deriving Repr, Inhabited

/-- What a tag says about the kind of a node. -/
inductive Announcement where
  /-- There is no tag. -/
  | untagged
  /-- The kind goes by the spelling, also that of a quoted text. -/
  | bySpelling
  | ofKind (kind : NodeKind)
deriving DecidableEq, Repr

namespace Announcement

/-- What the name of a tag says. -/
def ofName (name : List Char) : Announcement :=
  if name == Tag.ownHandle then .bySpelling else .ofKind (.ofName name)

/-- The kind of a scalar. -/
def scalarKind (a : Announcement) (plain : Bool) (text : List Char) : NodeKind :=
  match a with
  | .untagged => if plain then .ofSpelling text else .text
  | .bySpelling => .ofSpelling text
  | .ofKind kind => kind

/-- The kind of a sequence or a mapping. -/
def kindOr (a : Announcement) (default : NodeKind) : NodeKind :=
  match a with
  | .ofKind kind => kind
  | _ => default

end Announcement

/-- Why tokens make no document. -/
inductive Lack where
  /-- A token is out of place. -/
  | malformed
  /-- More tokens are needed than there are. -/
  | cutShort
deriving DecidableEq, Repr

/-- Where a node stands. -/
inductive Spot where
  /-- Inside a flow collection. -/
  | flow
  /-- Outside of flow collections. -/
  | block
  /-- Outside of flow collections as a key or value, where the items of a sequence may come
  without indentation. -/
  | entry
deriving DecidableEq, Repr

namespace Node

/-- A part that is left out. -/
def empty : Node := .scalar .null []

/-- Whether one of the given tokens comes next. -/
def isNext (among : List Token) : List Token → Except Lack Bool
  | t :: _ => .ok (among.contains t)
  | [] => .error .cutShort

/-- What the tag at the start of some tokens says, if there is one.  The token after a tag is
needed before the tag is understood. -/
def announcement (handles : Handles) : List Token → Except Lack (Announcement × List Token)
  | .tag _ :: [] => .error .cutShort
  | .tag t :: ts =>
    match t.name? handles with
    | some name => .ok (.ofName name, ts)
    | none => .error .malformed
  | ts => .ok (.untagged, ts)

mutual

/-- A node with its tag.  After a tag the rest may be left out. -/
def node (handles : Handles) (spot : Spot) : Nat → List Token → Except Lack (Node × List Token)
  | 0, _ => .error .malformed
  | fuel + 1, ts => do
    let (a, ts) ← announcement handles ts
    match ← content handles spot a fuel ts with
    | some parsed => .ok parsed
    | none =>
      if a = .untagged then .error .malformed
      else .ok (.scalar (a.scalarKind true []) [], ts)

/-- A node without its tag, if one starts here. -/
def content (handles : Handles) (spot : Spot) (a : Announcement) :
    Nat → List Token → Except Lack (Option (Node × List Token))
  | 0, _ => .error .malformed
  | fuel + 1, ts =>
    match ts with
    | [] => .error .cutShort
    | .scalar plain text :: ts => .ok (some (.scalar (a.scalarKind plain text) text, ts))
    | .flowSequenceStart :: ts =>
      (flowItems handles true fuel ts).map fun (items, ts) =>
        some (.sequence (a.kindOr .sequence) items, ts)
    | .flowMappingStart :: ts =>
      (flowEntries handles true fuel ts).map fun (entries, ts) =>
        some (.mapping (a.kindOr .mapping) entries, ts)
    | .blockEntry :: _ =>
      if spot = .entry then
        (bareItems handles fuel ts).map fun (items, ts) =>
          some (.sequence (a.kindOr .sequence) items, ts)
      else .ok none
    | .blockSequenceStart :: ts =>
      if spot = .flow then .ok none
      else
        (blockItems handles fuel ts).map fun (items, ts) =>
          some (.sequence (a.kindOr .sequence) items, ts)
    | .blockMappingStart :: ts =>
      if spot = .flow then .ok none
      else
        (blockEntries handles fuel ts).map fun (entries, ts) =>
          some (.mapping (a.kindOr .mapping) entries, ts)
    | _ => .ok none

/-- A node, or a part left out where one of the given tokens follows. -/
def part (handles : Handles) (spot : Spot) (ends : List Token) :
    Nat → List Token → Except Lack (Node × List Token)
  | 0, _ => .error .malformed
  | fuel + 1, ts => do
    if ← isNext ends ts then .ok (empty, ts) else node handles spot fuel ts

/-- The items of a sequence up to the end of the block. -/
def blockItems (handles : Handles) : Nat → List Token → Except Lack (List Node × List Token)
  | 0, _ => .error .malformed
  | fuel + 1, ts =>
    match ts with
    | [] => .error .cutShort
    | .blockEntry :: ts => do
      let (item, ts) ← part handles .block [.blockEntry, .blockEnd] fuel ts
      let (items, ts) ← blockItems handles fuel ts
      .ok (item :: items, ts)
    | .blockEnd :: ts => .ok ([], ts)
    | _ => .error .malformed

/-- The items of a sequence that has no block of its own. -/
def bareItems (handles : Handles) : Nat → List Token → Except Lack (List Node × List Token)
  | 0, _ => .error .malformed
  | fuel + 1, ts =>
    match ts with
    | [] => .error .cutShort
    | .blockEntry :: ts => do
      let (item, ts) ← part handles .block [.blockEntry, .key, .value, .blockEnd] fuel ts
      let (items, ts) ← bareItems handles fuel ts
      .ok (item :: items, ts)
    | ts => .ok ([], ts)

/-- The entries of a mapping up to the end of the block. -/
def blockEntries (handles : Handles) :
    Nat → List Token → Except Lack (List (Node × Node) × List Token)
  | 0, _ => .error .malformed
  | fuel + 1, ts =>
    match ts with
    | [] => .error .cutShort
    | .key :: ts => do
      let (key, ts) ← part handles .entry [.key, .value, .blockEnd] fuel ts
      let (value, ts) ←
        match ts with
        | [] => .error .cutShort
        | .value :: ts => part handles .entry [.key, .value, .blockEnd] fuel ts
        | ts => .ok (empty, ts)
      let (entries, ts) ← blockEntries handles fuel ts
      .ok ((key, value) :: entries, ts)
    | .blockEnd :: ts => .ok ([], ts)
    | _ => .error .malformed

/-- A key and its value inside a flow collection that ends with the given token. -/
def flowEntry (handles : Handles) (close : Token) :
    Nat → List Token → Except Lack ((Node × Node) × List Token)
  | 0, _ => .error .malformed
  | fuel + 1, ts => do
    let (key, ts) ← part handles .flow [.value, .flowEntry, close] fuel ts
    match ts with
    | [] => .error .cutShort
    | .value :: ts => do
      let (value, ts) ← part handles .flow [.flowEntry, close] fuel ts
      .ok ((key, value), ts)
    | ts => .ok ((key, empty), ts)

/-- The items of a flow sequence.  A key with its value is a mapping of one entry. -/
def flowItems (handles : Handles) (first : Bool) :
    Nat → List Token → Except Lack (List Node × List Token)
  | 0, _ => .error .malformed
  | fuel + 1, ts =>
    match first, ts with
    | _, [] | false, [.flowEntry] => .error .cutShort
    | _, .flowSequenceEnd :: ts | false, .flowEntry :: .flowSequenceEnd :: ts => .ok ([], ts)
    | false, .flowEntry :: .key :: ts | true, .key :: ts => do
      let (entry, ts) ← flowEntry handles .flowSequenceEnd fuel ts
      let (items, ts) ← flowItems handles false fuel ts
      .ok (.mapping .mapping [entry] :: items, ts)
    | false, .flowEntry :: ts | true, ts => do
      let (item, ts) ← node handles .flow fuel ts
      let (items, ts) ← flowItems handles false fuel ts
      .ok (item :: items, ts)
    | false, _ => .error .malformed

/-- The entries of a flow mapping.  A part without a colon is a key without a value. -/
def flowEntries (handles : Handles) (first : Bool) :
    Nat → List Token → Except Lack (List (Node × Node) × List Token)
  | 0, _ => .error .malformed
  | fuel + 1, ts =>
    match first, ts with
    | _, [] | false, [.flowEntry] => .error .cutShort
    | _, .flowMappingEnd :: ts | false, .flowEntry :: .flowMappingEnd :: ts => .ok ([], ts)
    | false, .flowEntry :: .key :: ts | true, .key :: ts => do
      let (entry, ts) ← flowEntry handles .flowMappingEnd fuel ts
      let (entries, ts) ← flowEntries handles false fuel ts
      .ok (entry :: entries, ts)
    | false, .flowEntry :: ts | true, ts => do
      let (key, ts) ← node handles .flow fuel ts
      let (entries, ts) ← flowEntries handles false fuel ts
      .ok ((key, empty) :: entries, ts)
    | false, _ => .error .malformed

end

/-- The fuel for reading a node: each of its parts takes a token or is reached by four steps
from one that does. -/
def fuelFor (ts : List Token) : Nat := 4 * ts.length + 8

/-- What the directives in front of a document set, and the tokens after them. -/
def preamble (p : Directive.Preamble) : List Token → Except Lack (Directive.Preamble × List Token)
  | .directive d :: ts =>
    match p.add? d with
    | some p => preamble p ts
    | none => .error .malformed
  | [] => .error .cutShort
  | ts => .ok (p, ts)

/-- The content of a document that starts with directives or a mark. -/
def marked (ts : List Token) : Except Lack (Node × List Token) := do
  let (p, ts) ← preamble .empty ts
  match ts with
  | .documentStart :: [] => .error .cutShort
  | .documentStart :: .directive d :: ts => .ok (empty, .directive d :: ts)
  | .documentStart :: ts =>
    part p.allHandles .block [.documentStart, .documentEnd, .streamEnd] (fuelFor ts) ts
  | _ => .error .malformed

/-- The content of the first document; without any token but the last one it is empty. -/
def document (ts : List Token) : Except Lack (Node × List Token) :=
  match ts with
  | [] => .error .cutShort
  | .streamEnd :: _ => .ok (empty, ts)
  | .directive _ :: _ | .documentStart :: _ => marked ts
  | _ => node Tag.standardHandles .block (fuelFor ts) ts

/-- Nothing but marks for the end of a document comes before the last token. -/
def ending : List Token → Except Lack Unit
  | [] => .error .cutShort
  | .documentEnd :: ts => ending ts
  | .streamEnd :: _ => .ok ()
  | .directive d :: ts => do
    let _ ← preamble .empty (.directive d :: ts)
    .error .malformed
  | _ => .error .malformed

/-- The only document that tokens make. -/
def ofTokens (ts : List Token) : Except Lack Node := do
  let (node, ts) ← document ts
  ending ts
  .ok node

/-- The only document of a text that has been cut into tokens. -/
def ofCut (cut : Cut) : Except ReadFault Node :=
  match ofTokens cut.tokens with
  | .ok node => .ok node
  | .error .malformed => .error .badYaml
  | .error .cutShort => .error (cut.fault.getD .badYaml)

end Node

end Yaml

end ProfileCompiler
