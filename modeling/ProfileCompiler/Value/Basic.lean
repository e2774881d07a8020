import ProfileCompiler.Number.Binary64
import ProfileCompiler.Value.Table

/-!
# Document values

A decoded document is a tree of lists and mappings over scalars.  The keys of a mapping are
scalars too, and a mapping remembers the order in which its keys were put.

Sameness is coarser than equality.  Booleans are numbers (`true` is `1`), numbers are the
same when their exact values are, and mappings are the same when they hold the same keys with
the same values in any order.

* `Scalar.identity` sends each scalar to what it is the same as; `Scalar.same` compares these.
* `Value.same` is sameness of values, `Value.truthy` their truth value.
* `Value.WellFormed` is the property of decoded values that no mapping has a key twice.
-/

namespace ProfileCompiler

/-- A leaf of a document, or a key of a mapping. -/
inductive Scalar where
  | null
  | bool (b : Bool)
  | int (n : Int)
  | float (x : Binary64)
  | text (s : String)
deriving Repr, Inhabited

/-- A document value. -/
inductive Value where
  | scalar (s : Scalar)
  | list (items : List Value)
  | mapping (entries : List (Scalar × Value))
deriving Repr, Inhabited

/-- What a scalar is compared by. -/
inductive Identity where
  | null
  | number (q : Quantity)
  | text (s : String)
deriving DecidableEq, Repr

namespace Scalar

/-- What a scalar is compared by: a boolean is the number one or zero. -/
def identity : Scalar → Identity
  | .null => .null
  | .bool b => .number (.finite (if b then 1 else 0))
  | .int n => .number (.finite n)
  | .float x => .number x.quantity
  | .text s => .text s

/-- Two scalars are the same when they have one identity. -/
def same (a b : Scalar) : Bool := a.identity == b.identity

instance : BEq Scalar := ⟨same⟩

theorem beq_eq_same (a b : Scalar) : (a == b) = a.same b := rfl

theorem same_iff {a b : Scalar} : a.same b = true ↔ a.identity = b.identity := by
  simp [same]

instance : EquivBEq Scalar where
  rfl := by intro a; simp [beq_eq_same, same]
  symm := by intro a b h; simp only [beq_eq_same, same_iff] at *; exact h.symm
  trans := by intro a b c h g; simp only [beq_eq_same, same_iff] at *; exact h.trans g

theorem text_beq_text (a b : String) : (text a == text b) = (a == b) := by
  rw [beq_eq_same, same, Bool.eq_iff_iff]
  simp [identity]

/-- Only a text is the same as a text. -/
theorem eq_text_of_beq {k : Scalar} {s : String} (h : (k == text s) = true) : k = text s := by
  have hid : k.identity = .text s := same_iff.1 h
  cases k <;> simp_all [identity]

/-- The scalar is neither null, nor zero, nor empty. -/
def truthy : Scalar → Bool
  | .null => false
  | .bool b => b
  | .int n => n != 0
  | .float x => x.isNonzero
  | .text s => s != ""

/-- The text of a scalar that is one. -/
def text? : Scalar → Option String
  | .text s => some s
  | _ => none

end Scalar

/-- The entries of a mapping. -/
abbrev Entries := Table Scalar Value

/-- The kinds of values. -/
inductive Kind where
  | null | bool | int | float | text | list | mapping
deriving DecidableEq, Repr

/-- The word for a kind in messages. -/
def Kind.label : Kind → String
  | .null => "NoneType"
  | .bool => "bool"
  | .int => "int"
  | .float => "float"
  | .text => "str"
  | .list => "list"
  | .mapping => "dict"

namespace Value

/-- The null value. -/
def null : Value := .scalar .null

/-- A text as a value. -/
def text (s : String) : Value := .scalar (.text s)

/-- A boolean as a value. -/
def bool (b : Bool) : Value := .scalar (.bool b)

/-- An integer as a value. -/
def int (n : Int) : Value := .scalar (.int n)

/-- A mapping from texts. -/
def ofTexts (t : Table String Value) : Value :=
  .mapping (t.map fun (k, v) => (.text k, v))

/-- The kind of a value. -/
def kind : Value → Kind
  | .scalar .null => .null
  | .scalar (.bool _) => .bool
  | .scalar (.int _) => .int
  | .scalar (.float _) => .float
  | .scalar (.text _) => .text
  | .list _ => .list
  | .mapping _ => .mapping

/-- The entries of a mapping. -/
def entries? : Value → Option Entries
  | .mapping entries => some entries
  | _ => none

theorem bind_entries?_of_not_mapping {v : Option Value}
    (h : ∀ entries, v ≠ some (.mapping entries)) : v.bind entries? = none := by
  cases v with
  | none => rfl
  | some v =>
    cases v with
    | mapping entries => exact absurd rfl (h entries)
    | scalar s => rfl
    | list items => rfl

/-- The items of a list. -/
def items? : Value → Option (List Value)
  | .list items => some items
  | _ => none

/-- The text of a value that is one. -/
def text? : Value → Option String
  | .scalar (.text s) => some s
  | _ => none

/-- The key that a value can be: scalars are keys, lists and mappings are not. -/
def key? : Value → Option Scalar
  | .scalar s => some s
  | _ => none

/-- Whether a value is a mapping. -/
def isMapping : Value → Bool
  | .mapping _ => true
  | _ => false

/-- Whether a value is null. -/
def isNull : Value → Bool
  | .scalar .null => true
  | _ => false

/-- The value is neither null, nor false, nor zero, nor empty. -/
def truthy : Value → Bool
  | .scalar s => s.truthy
  | .list items => !items.isEmpty
  | .mapping entries => !entries.isEmpty

mutual

/-- Sameness of values: lists item by item, mappings by their keys and values in any order. -/
def same : Value → Value → Bool
  | .scalar a, .scalar b => a == b
  | .list xs, .list ys => sameItems xs ys
  | .mapping xs, .mapping ys => xs.length == ys.length && sameEntries xs ys
  | _, _ => false

/-- Sameness of lists item by item. -/
def sameItems : List Value → List Value → Bool
  | [], [] => true
  | x :: xs, y :: ys => same x y && sameItems xs ys
  | _, _ => false

/-- Every key of the first entries is in the second with the same value. -/
def sameEntries : List (Scalar × Value) → List (Scalar × Value) → Bool
  | [], _ => true
  | (k, v) :: rest, ys =>
    (match Table.get? k ys with
      | some w => same v w
      | none => false) && sameEntries rest ys

end

instance : BEq Value := ⟨same⟩

theorem beq_eq_same (a b : Value) : (a == b) = a.same b := rfl

mutual

/-- No mapping in the value has a key twice. -/
def WellFormed : Value → Prop
  | .scalar _ => True
  | .list items => AllWellFormed items
  | .mapping entries => Table.Distinct entries ∧ EntriesWellFormed entries

/-- Every item is well formed. -/
def AllWellFormed : List Value → Prop
  | [] => True
  | item :: rest => item.WellFormed ∧ AllWellFormed rest

/-- Every entry has a well-formed value. -/
def EntriesWellFormed : List (Scalar × Value) → Prop
  | [] => True
  | (_, v) :: rest => v.WellFormed ∧ EntriesWellFormed rest

end

mutual

/-- The key paths to all nested mapping entries, a mapping's own key before those below it.
Lists are not entered. -/
def paths : Value → List (List Scalar)
  | .mapping entries => entryPaths entries
  | _ => []

/-- The key paths that start with one of the given entries. -/
def entryPaths : List (Scalar × Value) → List (List Scalar)
  | [] => []
  | (k, v) :: rest => [k] :: ((paths v).map (k :: ·) ++ entryPaths rest)

end

end Value

end ProfileCompiler
