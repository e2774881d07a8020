import ProfileCompiler.Value.Basic

/-!
# The lookup cache

The cache of a session holds values by key in insertion order and counts the reads that find
something and those that do not.  Testing for a key and writing are not counted.
-/

namespace ProfileCompiler

/-- Values by key, and how often reading found one. -/
structure Cache where
  entries : Table String Value
  hits : Nat
  misses : Nat
deriving Inhabited

namespace Cache

/-- The cache before any use. -/
def empty : Cache := ⟨[], 0, 0⟩

/-- Whether a key is cached. -/
def has (c : Cache) (key : String) : Bool := c.entries.has key

/-- The value at a key, or else the default; the read is counted. -/
def fetch (c : Cache) (key : String) (default : Value) : Value × Cache :=
  match c.entries.get? key with
  | some v => (v, { c with hits := c.hits + 1 })
  | none => (default, { c with misses := c.misses + 1 })

/-- The cache with a value stored at a key. -/
def store (c : Cache) (key : String) (v : Value) : Cache :=
  { c with entries := c.entries.put key v }

/-- The cache without entries.  The counts stay. -/
def clear (c : Cache) : Cache := { c with entries := [] }

/-- The number of entries. -/
def size (c : Cache) : Nat := c.entries.length

/-- The share of reads that found something, zero before any read. -/
def hitRate (c : Cache) : Binary64 :=
  let total := c.hits + c.misses
  if total = 0 then .zero else .ofRat (c.hits / total)

/-- The entries other than the one at a key. -/
def others (c : Cache) (key : String) : Table String Value :=
  c.entries.filter fun e => e.1 != key

end Cache

end ProfileCompiler
