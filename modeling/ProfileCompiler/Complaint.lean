import ProfileCompiler.Value.Printer

/-!
# Complaints about fields

Reading a record from a value either gives the record or a list of complaints: what is wrong,
and where.  A place is the path of names and positions that leads to it.
-/

namespace ProfileCompiler

/-- What is wrong with a field. -/
inductive Flaw where
  /-- The field is required and absent. -/
  | missing
  /-- A text is expected. -/
  | notText
  /-- A mapping is expected. -/
  | notMapping
  /-- A list is expected. -/
  | notList
  /-- The fields of a part of the record are expected. -/
  | notFields
  /-- The fields of a request are expected. -/
  | notRequest
  /-- A truth value is expected. -/
  | notBoolean
  /-- A truth value is expected, and the text or number stands for none. -/
  | unclearBoolean
deriving DecidableEq, Repr

/-- What is wrong, and where. -/
structure Complaint where
  flaw : Flaw
  location : List Scalar
deriving Repr

namespace Complaint

/-- The complaint seen from one level further out. -/
def under (name : String) (c : Complaint) : Complaint :=
  { c with location := .text name :: c.location }

/-- The complaint about an item of a list. -/
def atIndex (index : Nat) (c : Complaint) : Complaint :=
  { c with location := .int index :: c.location }

end Complaint

/-- A field read from a value: what it is, or what is wrong with it. -/
abbrev Reading (α : Type) := Except (List Complaint) α

namespace Reading

/-- A single complaint at the place itself. -/
def flawed {α : Type} (flaw : Flaw) : Reading α := .error [⟨flaw, []⟩]

/-- Two readings together; the complaints of both are kept. -/
def both {α β : Type} (a : Reading α) (b : Reading β) : Reading (α × β) :=
  match a, b with
  | .ok x, .ok y => .ok (x, y)
  | .error xs, .ok _ => .error xs
  | .ok _, .error ys => .error ys
  | .error xs, .error ys => .error (xs ++ ys)

/-- A reading seen from one level further out. -/
def under {α : Type} (name : String) (a : Reading α) : Reading α :=
  a.mapError fun cs => cs.map (Complaint.under name)

/-- A text. -/
def text (v : Value) : Reading String :=
  match v.text? with
  | some s => .ok s
  | none => flawed .notText

/-- A text or nothing. -/
def optionalText (v : Value) : Reading (Option String) :=
  if v.isNull then .ok none else (text v).map some

/-- The items of a list, each read; the complaints of all items are kept. -/
def itemsFrom {α : Type} (read : Value → Reading α) : Nat → List Value → Reading (List α)
  | _, [] => .ok []
  | index, v :: rest =>
    let item := (read v).mapError fun cs => cs.map (Complaint.atIndex index)
    (both item (itemsFrom read (index + 1) rest)).map fun (a, more) => a :: more

/-- A list of items. -/
def list {α : Type} (read : Value → Reading α) (v : Value) : Reading (List α) :=
  match v.items? with
  | some items => itemsFrom read 0 items
  | none => flawed .notList

/-- How a key is shown that has no quoted form. -/
def unshownKey : String := "<unprintable int object>"

/-- The place of a key: texts and integers of 64 bits stand for themselves, a boolean for its
number, and any other key for its quoted form. -/
def place : Scalar → Scalar
  | .text s => .text s
  | .bool b => .int (if b then 1 else 0)
  | .int n =>
    if -Int.pow 2 63 ≤ n ∧ n < Int.pow 2 63 then .int n
    else .text ((Text.decimal? n).getD unshownKey)
  | k => .text (k.quoted?.getD unshownKey)

/-- A mapping whose keys are texts.  Each other key is complained about at its own place. -/
def mapping (v : Value) : Reading Entries :=
  match v.entries? with
  | some entries =>
    match entries.filter fun e => e.1.text?.isNone with
    | [] => .ok entries
    | odd => .error (odd.map fun e => ⟨.notText, [place e.1, .text "[key]"]⟩)
  | none => flawed .notMapping

/-- A required field of a mapping. -/
def required {α : Type} (name : String) (read : Value → Reading α) (fields : Entries) :
    Reading α :=
  match fields.get? (.text name) with
  | some v => under name (read v)
  | none => under name (flawed .missing)

/-- A field of a mapping with a default. -/
def defaulted {α : Type} (name : String) (default : α) (read : Value → Reading α)
    (fields : Entries) : Reading α :=
  match fields.get? (.text name) with
  | some v => under name (read v)
  | none => .ok default

end Reading

end ProfileCompiler
