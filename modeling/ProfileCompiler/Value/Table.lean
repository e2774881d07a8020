/-!
# Tables in insertion order

A `Table` is a list of keys with their values in the order in which the keys were first put.
Keys are compared with `==`, which need not be equality: of two keys that are the same, the
spelling that came first stays.
-/

namespace ProfileCompiler

/-- Keys with their values, in insertion order. -/
abbrev Table (κ α : Type) := List (κ × α)

namespace Table

variable {κ α β : Type} [BEq κ]

/-- The value at a key. -/
def get? (k : κ) : Table κ α → Option α
  | [] => none
  | (k', v) :: rest => if k' == k then some v else get? k rest

/-- Whether a key is present. -/
def has (k : κ) (t : Table κ α) : Bool := (t.get? k).isSome

/-- The value at a key replaced in its place, or the key added at the end. -/
def put (k : κ) (v : α) : Table κ α → Table κ α
  | [] => [(k, v)]
  | (k', w) :: rest => if k' == k then (k', v) :: rest else (k', w) :: put k v rest

/-- The table without a key. -/
def erase (k : κ) : Table κ α → Table κ α
  | [] => []
  | (k', w) :: rest => if k' == k then rest else (k', w) :: erase k rest

/-- The keys, in insertion order. -/
def keys (t : Table κ α) : List κ := t.map Prod.fst

/-- The table that putting the given keys and values one after the other builds. -/
def ofList (entries : List (κ × α)) : Table κ α :=
  entries.foldl (fun t e => t.put e.1 e.2) []

/-- A value added at the end of the list that a key holds. -/
def append (k : κ) (v : α) (t : Table κ (List α)) : Table κ (List α) :=
  match t.get? k with
  | some vs => t.put k (vs ++ [v])
  | none => t.put k [v]

/-- No two keys are the same. -/
def Distinct (t : Table κ α) : Prop := t.Pairwise fun a b => (a.1 == b.1) = false

end Table

end ProfileCompiler
