import ProfileCompiler.Text.Pieces

/-!
# Versions and their order

A version has an epoch, a release of one or more numbers, and optionally a pre-release, a
post-release, a development number and local parts.

The order goes by epoch, then release with missing numbers read as zeros, then: development
releases of the bare release come first, then pre-releases, then the release itself and what
follows it.  Among these a post-release comes later, a development release earlier, and local
parts break the remaining ties.
-/

namespace ProfileCompiler

/-- The phases of a pre-release. -/
inductive Phase where
  | alpha | beta | candidate
deriving DecidableEq, Repr

/-- The letters of a phase in the normal form. -/
def Phase.label : Phase → String
  | .alpha => "a"
  | .beta => "b"
  | .candidate => "rc"

/-- The place of a phase among the phases. -/
def Phase.rank : Phase → Nat
  | .alpha => 0
  | .beta => 1
  | .candidate => 2

/-- A part of the local label of a version. -/
inductive LocalPart where
  | number (n : Nat)
  | word (letters : List Char)
deriving DecidableEq, Repr

/-- A part as written. -/
def LocalPart.text : LocalPart → String
  | .number n => toString n
  | .word letters => String.ofList letters

/-- A version.  No local parts means no local label. -/
structure Version where
  epoch : Nat
  release : List Nat
  pre : Option (Phase × Nat)
  post : Option Nat
  dev : Option Nat
  localParts : List LocalPart
deriving DecidableEq, Repr

/-- Releases compared number by number, missing numbers being zeros. -/
def compareRelease : List Nat → List Nat → Ordering
  | [], [] => .eq
  | [], b :: bs => (compare 0 b).then (compareRelease [] bs)
  | a :: as, [] => (compare a 0).then (compareRelease as [])
  | a :: as, b :: bs => (compare a b).then (compareRelease as bs)

/-- Words compared by their characters, a shorter one before its continuations. -/
def compareWord : List Char → List Char → Ordering
  | [], [] => .eq
  | [], _ :: _ => .lt
  | _ :: _, [] => .gt
  | a :: as, b :: bs => (compare a.toNat b.toNat).then (compareWord as bs)

/-- Local parts compared: words come before numbers. -/
def compareLocalPart : LocalPart → LocalPart → Ordering
  | .number a, .number b => compare a b
  | .word a, .word b => compareWord a b
  | .word _, .number _ => .lt
  | .number _, .word _ => .gt

/-- Local labels compared part by part, a shorter one before its continuations. -/
def compareLocal : List LocalPart → List LocalPart → Ordering
  | [], [] => .eq
  | [], _ :: _ => .lt
  | _ :: _, [] => .gt
  | a :: as, b :: bs => (compareLocalPart a b).then (compareLocal as bs)

namespace Version

/-- Where a version stands by its pre-release: a development release of the bare release
first, pre-releases by phase and number, everything else last. -/
def preRank (v : Version) : List Nat :=
  match v.pre, v.post, v.dev with
  | some (phase, n), _, _ => [1, phase.rank, n]
  | none, none, some _ => [0]
  | none, _, _ => [2]

/-- Where a version stands by its post-release. -/
def postRank (v : Version) : Nat :=
  match v.post with
  | none => 0
  | some n => n + 1

/-- Where a version stands by its development number: without one it comes last. -/
def devRank (v : Version) : List Nat :=
  match v.dev with
  | none => [1]
  | some n => [0, n]

/-- Versions compared. -/
def order (v w : Version) : Ordering :=
  (compare v.epoch w.epoch).then <|
  (compareRelease v.release w.release).then <|
  (compareRelease v.preRank w.preRank).then <|
  (compare v.postRank w.postRank).then <|
  (compareRelease v.devRank w.devRank).then <|
  compareLocal v.localParts w.localParts

/-- The version without its local label. -/
def withoutLocal (v : Version) : Version := { v with localParts := [] }

/-- Whether two versions have the same epoch and release. -/
def sameBase (v w : Version) : Bool :=
  v.epoch == w.epoch && compareRelease v.release w.release == .eq

/-- A version that comes before its release. -/
def isPrerelease (v : Version) : Bool := v.pre.isSome || v.dev.isSome

/-- The first version after a development release and its local versions, or after a
post-release, its local versions and what comes before the next post-release.  After any other
version there is none. -/
def follower? (v : Version) : Option Version :=
  match v.dev, v.post with
  | some n, _ => some { v with dev := some (n + 1), localParts := [] }
  | none, some n => some { v with post := some (n + 1), dev := some 0, localParts := [] }
  | none, none => none

/-- The first version that leads up to a version: its first development release, unless it is
a pre-release itself. -/
def opening (v : Version) : Version :=
  if v.isPrerelease then v else { v with dev := some 0 }

/-- Whether a version is `w` itself, a local version of it, or one of its post-releases. -/
def belongsTo (v w : Version) : Bool :=
  v.sameBase w && v.pre == w.pre && (v.dev == w.dev || v.post.isSome)

/-- The first number of the release. -/
def major (v : Version) : Nat := v.release.headD 0

/-- The numbers of the release with points between them. -/
def releaseText (v : Version) : String := Text.join "." (v.release.map toString)

/-- The local label. -/
def localText (v : Version) : String := Text.join "." (v.localParts.map LocalPart.text)

/-- The normal form. -/
def text (v : Version) : String :=
  (if v.epoch = 0 then "" else toString v.epoch ++ "!") ++
  v.releaseText ++
  (match v.pre with
    | none => ""
    | some (phase, n) => phase.label ++ toString n) ++
  (match v.post with
    | none => ""
    | some n => ".post" ++ toString n) ++
  (match v.dev with
    | none => ""
    | some n => ".dev" ++ toString n) ++
  (if v.localParts.isEmpty then "" else "+" ++ v.localText)

end Version

end ProfileCompiler
