import ProfileCompiler.Fault
import ProfileCompiler.Version.Reader

/-!
# Version clauses

A clause is an operator with a version, such as `>=1.0`.  `Clause.accepts` gives its meaning
with pre-releases allowed; `Clause.read?` reads its text.

A text may have the form of a clause and yet have no clause that could be used: its numbers
have too many digits, or, after `~=` only, some of its letters are other characters with the
same capital or small letter.  Such a text is read as a fault.
-/

namespace ProfileCompiler

/-- One condition on a version. -/
inductive Clause where
  /-- At least the version, the candidate's local label aside. -/
  | atLeast (bound : Version)
  /-- At most the version, the candidate's local label aside. -/
  | atMost (bound : Version)
  /-- Later than the version. -/
  | above (bound : Version)
  /-- Earlier than the version. -/
  | below (bound : Version)
  /-- The version itself. -/
  | exactly (target : Version)
  /-- Any other version. -/
  | except (target : Version)
  /-- A version whose release starts with the given numbers. -/
  | within (epoch : Nat) (release : List Nat)
  /-- A version whose release does not start with the given numbers. -/
  | outside (epoch : Nat) (release : List Nat)
  /-- At least the version, with a release that starts with all its numbers but the last. -/
  | compatible (bound : Version)
  /-- A version whose normal form is the given text, letter case aside. -/
  | spelled (letters : List Char)
deriving DecidableEq, Repr

namespace Clause

/-- The release starts with the given numbers, missing numbers being zeros. -/
def startsWith : List Nat → List Nat → Bool
  | [], _ => true
  | a :: as, [] => a == 0 && startsWith as []
  | a :: as, b :: bs => a == b && startsWith as bs

/-- The candidate lies within the epoch and the release numbers. -/
def isWithin (epoch : Nat) (release : List Nat) (v : Version) : Bool :=
  v.epoch == epoch && startsWith release v.release

/-- The candidate is the target; its local label counts only if the target has one. -/
def isExactly (target v : Version) : Bool :=
  let v := if target.localParts.isEmpty then v.withoutLocal else v
  v.order target == .eq

/-- The candidate is later than the bound: no local version of it, and a post-release of it
only if the bound is a post-release or a development release. -/
def isAbove (bound v : Version) : Bool :=
  match bound.follower? with
  | some next => v.order next != .lt
  | none => v.order bound == .gt && !v.belongsTo bound

/-- The candidate is earlier than the bound and than what leads up to the bound. -/
def isBelow (bound v : Version) : Bool := v.order bound.opening == .lt

/-- Whether a version meets the clause. -/
def accepts : Clause → Version → Bool
  | .atLeast bound, v => v.withoutLocal.order bound != .lt
  | .atMost bound, v => v.withoutLocal.order bound != .gt
  | .above bound, v => isAbove bound v
  | .below bound, v => isBelow bound v
  | .exactly target, v => isExactly target v
  | .except target, v => !isExactly target v
  | .within epoch release, v => isWithin epoch release v
  | .outside epoch release, v => !isWithin epoch release v
  | .compatible bound, v =>
    v.withoutLocal.order bound != .lt && isWithin bound.epoch bound.release.dropLast v
  | .spelled letters, v => Text.small v.text.toList == Text.small letters

/-- The operators. -/
inductive Operator where
  | compatible | identical | equal | unequal | atMost | atLeast | below | above
deriving DecidableEq, Repr

/-- The operators as written, an operator before those that start it. -/
def operators : List (String × Operator) :=
  [("~=", .compatible), ("===", .identical), ("==", .equal), ("!=", .unequal), ("<=", .atMost),
    (">=", .atLeast), ("<", .below), (">", .above)]

/-- The epoch and release of a version text that ends in `.*`. -/
def readWildcard? (cs : List Char) : Option (Nat × List Nat) :=
  match Version.readBase? (Text.lower cs) with
  | some (epoch, release, ['.', '*']) => some (epoch, release)
  | _ => none

/-- A version without a local label. -/
def readPublic? (cs : List Char) : Option Version := do
  let v ← Version.read? cs
  if v.localParts.isEmpty then some v else none

/-- Equality or inequality with a version, which may be a wildcard or have a local label. -/
def readEquality? (equal : Bool) (cs : List Char) : Option Clause :=
  match readWildcard? cs with
  | some (epoch, release) => some (if equal then .within epoch release else .outside epoch release)
  | none => (Version.read? cs).map fun v => if equal then .exactly v else .except v

/-- The clause of an operator and a version text. -/
def ofOperator? (op : Operator) (cs : List Char) : Option Clause :=
  match op with
  | .identical =>
    if cs.all fun c => !Text.isBlank c && c != ';' && c != ')' then some (.spelled cs) else none
  | .equal => readEquality? true cs
  | .unequal => readEquality? false cs
  | .compatible =>
    match readPublic? cs with
    | some v => if 2 ≤ v.release.length then some (.compatible v) else none
    | none => none
  | .atMost => (readPublic? cs).map .atMost
  | .atLeast => (readPublic? cs).map .atLeast
  | .below => (readPublic? cs).map .below
  | .above => (readPublic? cs).map .above

/-- The letter of ASCII that a character is when letter case is left out of account. -/
def likeLetter (c : Char) : Char :=
  if c == 'ſ' then 's' else if c == 'İ' || c == 'ı' then 'i' else c

/-- Whether a text has the form of a clause that has no meaning. -/
def isUnusable (op : Operator) (cs : List Char) : Bool :=
  op = .compatible && (ofOperator? op cs).isNone && (ofOperator? op (cs.map likeLetter)).isSome

/-- The clause that a text is, or the fault that shows when the clause is used. -/
def read? (cs : List Char) : Option (Except Fault Clause) := do
  let (op, rest) ← Version.word? operators (Text.strip cs)
  let rest := Text.strip rest
  if isUnusable op rest then some (.error .unusableClause)
  else do
    let clause ← ofOperator? op rest
    if op != .identical && Version.hasOverlongNumber rest then some (.error .overlongNumber)
    else some (.ok clause)

end Clause

end ProfileCompiler
