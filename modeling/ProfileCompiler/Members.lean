import ProfileCompiler.Fault

/-!
# Going through values

Lists, texts and mappings can be gone through: a list has items, a text has characters, and a
mapping has keys.  A row of pairs can be taken for a mapping.
-/

namespace ProfileCompiler

namespace Value

/-- What going through a value meets: the items of a list, the characters of a text, the keys
of a mapping. -/
def members : Value → Except Fault (List Value)
  | .list items => .ok items
  | .scalar (.text s) => .ok (s.toList.map fun c => Value.text (String.ofList [c]))
  | .mapping entries => .ok (entries.map fun e => .scalar e.1)
  | _ => .error .notSequence

/-- The members of a value; a value that holds nothing has none. -/
def membersOrNone (v : Value) : Except Fault (List Value) :=
  if v.truthy then v.members else .ok []

/-- The key and the value that the two members of a value are. -/
def pair (v : Value) : Except Fault (Scalar × Value) := do
  match ← v.members with
  | [.scalar key, w] => .ok (key, w)
  | [_, _] => .error .unusableName
  | _ => .error .notPair

/-- The entries of a mapping, or those that a row of pairs makes; a value that holds nothing
has none. -/
def toEntries : Value → Except Fault Entries
  | .mapping entries => .ok entries
  | v => do
    let members ← v.membersOrNone
    let pairs ← members.mapM pair
    .ok (Table.ofList pairs)

end Value

end ProfileCompiler
