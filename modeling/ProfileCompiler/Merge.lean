import ProfileCompiler.Fault
import ProfileCompiler.Text.Pieces

/-!
# Merging values

`deepMerge` merges a mapping into a mapping key by key; any other incoming value takes the
place of what was there.  With a knockout mark, an incoming key that starts with the mark
removes the key named after it.  Knockout keys are used up by the merge: they never reach the
result, also where an incoming mapping meets nothing to be merged with.

`union` joins two lists without repetitions, and `mergeValues` merges the values that several
specifications give to one parameter.
-/

namespace ProfileCompiler

/-- The mark of the keys that remove other keys in documents. -/
def knockoutMark : String := "--"

/-- A mark that is in force: an empty one is not. -/
def activeMark (mark : Option String) : Option String :=
  match mark with
  | some m => if m = "" then none else some m
  | none => none

/-- The key that a knockout key removes; other keys remove none. -/
def knockedOut? (mark : Option String) (k : Scalar) : Option Scalar :=
  match mark, k with
  | some m, .text s => (Text.after? m s).map .text
  | _, _ => none

mutual

/-- What an incoming value leaves in the place of an old one. -/
def mergedValue (mark : Option String) (old : Option Value) : Value → Value
  | .mapping entries =>
    match old with
    | some (.mapping oldEntries) => .mapping (mergeEntries mark oldEntries entries)
    | _ => if mark.isSome then .mapping (mergeEntries mark [] entries) else .mapping entries
  | v => v

/-- The entries after taking in the incoming ones, one after the other. -/
def mergeEntries (mark : Option String) (dest : Entries) : List (Scalar × Value) → Entries
  | [] => dest
  | (k, v) :: rest =>
    let dest :=
      match knockedOut? mark k with
      | some gone => dest.erase gone
      | none => dest.put k (mergedValue mark (dest.get? k) v)
    mergeEntries mark dest rest

end

/-- The incoming value merged into an existing one. -/
def deepMerge (mark : Option String) (existing incoming : Value) : Value :=
  match existing, incoming with
  | .mapping dest, .mapping source => .mapping (mergeEntries (activeMark mark) dest source)
  | _, v => v

/-- The items added one by one, each unless the same item is there already. -/
def addNew (done : List Value) : List Value → List Value
  | [] => done
  | item :: rest =>
    if done.any fun other => other == item then addNew done rest
    else addNew (done ++ [item]) rest

/-- Two lists joined, the first of the same items staying. -/
def union (existing incoming : List Value) : List Value := addNew [] (existing ++ incoming)

/-- The value of a parameter after one more specification: lists are joined, mappings merged
without a knockout mark, and other values replaced. -/
def mergeValues (existing incoming : Value) : Except Fault Value :=
  match existing, incoming with
  | .list xs, .list ys => .ok (.list (union xs ys))
  | .mapping _, .mapping _ => .ok (deepMerge none existing incoming)
  | .scalar _, _ => .ok incoming
  | _, _ => .error (.shapeMismatch incoming.kind existing.kind)

end ProfileCompiler
