import ProfileCompiler.Yaml.Node

/-!
# Reading YAML

`Yaml.read` reads a text that holds at most one document of plain values, by the rules of
YAML 1.1.  A key that occurs twice keeps its first place and its last value.  A list or a
mapping is no key.  A mapping with a stand-in key can be read as a scalar, that of its value.

Of several nodes that cannot be read, the one nearest to the root is reported, and of those at
one depth the first.
-/

namespace ProfileCompiler

namespace Yaml

/-- A fault, and how deep in the document it lies. -/
structure Defect where
  depth : Nat
  fault : ReadFault
deriving Repr

namespace Defect

/-- The defect seen from the collection around it. -/
def deeper (d : Defect) : Defect := { d with depth := d.depth + 1 }

/-- Two results together; of two defects the one nearer to the root counts, else the first. -/
def both {α β : Type} (x : Except Defect α) (y : Except Defect β) : Except Defect (α × β) :=
  match x, y with
  | .ok a, .ok b => .ok (a, b)
  | .error d, .ok _ => .error d
  | .ok _, .error e => .error e
  | .error d, .error e => .error (if e.depth < d.depth then e else d)

end Defect

namespace Node

/-- The kind of a node. -/
def kind : Node → NodeKind
  | .scalar kind _ => kind
  | .sequence kind _ => kind
  | .mapping kind _ => kind

mutual

/-- The text of a node that is to be a scalar: its own, or that of its stand-in. -/
def text? : Node → Option (List Char)
  | .scalar _ text => some text
  | .sequence .. => none
  | .mapping _ entries => standIn? entries

/-- The text of the first value whose key is a stand-in key. -/
def standIn? : List (Node × Node) → Option (List Char)
  | [] => none
  | (key, value) :: rest => if key.kind = .standIn then text? value else standIn? rest

end

/-- The scalar that a node stands for as one of the given kind. -/
def scalarAs (kind : NodeKind) (n : Node) : Except Defect Scalar :=
  match n.text? with
  | some text => (kind.read text).mapError fun f => ⟨0, f⟩
  | none => .error ⟨0, .badYaml⟩

/-- The key that a node stands for.  A stand-in key is a text like any other. -/
def toKey (n : Node) : Except Defect Scalar :=
  n.scalarAs (if n.kind = .standIn then .text else n.kind)

/-- The value of a node that is no collection of its kind.  Collections are filled after all
else at their depth has been read. -/
def toScalar (n : Node) : Except Defect Value :=
  match n.kind with
  | .sequence | .mapping => .error ⟨1, .badYaml⟩
  | kind => (n.scalarAs kind).map Value.scalar

mutual

/-- The value that a node stands for. -/
def toValue : Node → Except Defect Value
  | .scalar kind text => toScalar (.scalar kind text)
  | .sequence kind items =>
    if kind = .sequence then ((itemsOf items).map Value.list).mapError Defect.deeper
    else toScalar (.sequence kind items)
  | .mapping kind entries =>
    if kind = .mapping then
      ((entriesOf entries).map fun es => Value.mapping (Table.ofList es)).mapError Defect.deeper
    else toScalar (.mapping kind entries)

/-- The values of the items of a sequence. -/
def itemsOf : List Node → Except Defect (List Value)
  | [] => .ok []
  | item :: rest => (Defect.both (toValue item) (itemsOf rest)).map fun (v, vs) => v :: vs

/-- The keys and values of a mapping. -/
def entriesOf : List (Node × Node) → Except Defect (List (Scalar × Value))
  | [] => .ok []
  | (key, value) :: rest =>
    (Defect.both (Defect.both (toKey key) (toValue value)) (entriesOf rest)).map
      fun (e, es) => e :: es

end

end Node

/-- The value that a text stands for. -/
def read (d : Delivery) : Except ReadFault Value := do
  let node ← Node.ofCut (Token.scan d)
  node.toValue.mapError Defect.fault

end Yaml

end ProfileCompiler
