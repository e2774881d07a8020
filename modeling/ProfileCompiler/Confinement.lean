import ProfileCompiler.Host
import ProfileCompiler.Note
import ProfileCompiler.Version.Range

/-!
# Confinement

An entry may be confined to hosts with certain facts or modules.  Its confinement is a
mapping: the key `module_name` asks for an installed module, `module_version` beside it for a
version of that module, and any other key for a fact.

* `matchesFact` holds a fact against the value that a confinement expects.
* `Confinement.applies` judges one entry, `Confinement.apply` the entries of a section.
* `Confinement.prune` does the same to a mapping in its place.

Judging an entry asks the host for facts in the order of the keys and stops at the first that
does not hold.  The module list is fetched when it is first needed and kept from then on.
-/

namespace ProfileCompiler

/-- A fact against a single expected value: a text that starts with `!` expects anything but
the rest of it. -/
def matchesOne (fact : Value) : Value → Bool
  | .scalar (.text s) =>
    match Text.after? "!" s with
    | some other => !(fact == Value.text other)
    | none => fact == Value.text s
  | v => fact == v

/-- A fact against an expected value: a list expects one of its items, a list within it being
compared as a whole. -/
def matchesFact (fact : Value) : Value → Bool
  | .list items =>
    items.any fun
      | .list inner => fact == .list inner
      | item => matchesOne fact item
  | v => matchesOne fact v

/-- The module list, once it has been fetched. -/
abbrev Inventory := Option (List Value)

/-- Work that asks the host and keeps the module list, whether or not it ends in a fault. -/
def Inquiry (α : Type) : Type := Inventory → Told α × Inventory

namespace Inquiry

variable {α β : Type}

/-- Nothing is asked. -/
def done (a : α) : Inquiry α := fun inventory => (.done a, inventory)

/-- One inquiry after another; the second is not begun if the first ends in a fault. -/
def andThen (x : Inquiry α) (f : α → Inquiry β) : Inquiry β := fun inventory =>
  let (first, inventory) := x inventory
  match first.outcome with
  | .ok a =>
    let (second, inventory) := f a inventory
    (⟨first.events ++ second.events, second.outcome⟩, inventory)
  | .error fault => (⟨first.events, .error fault⟩, inventory)

instance : Monad Inquiry where
  pure := done
  bind := andThen

/-- Work that asks nothing of the host. -/
def tell (x : Told α) : Inquiry α := fun inventory => (x, inventory)

/-- The work ends in a fault. -/
def fail (fault : Fault) : Inquiry α := tell (.fail fault)

/-- A note is left. -/
def note (n : Note) : Inquiry Unit := tell (.note n)

/-- The outcome of an inquiry as a value, a fault included. -/
def attempt (x : Inquiry α) : Inquiry (Except Fault α) := fun inventory =>
  let (told, inventory) := x inventory
  (⟨told.events, .ok told.outcome⟩, inventory)

/-- The host is asked for a fact. -/
def fact (host : Host) (name : Scalar) : Inquiry Value := fun inventory =>
  (⟨[.askedFact name], host.fact name⟩, inventory)

/-- The module list, fetched from the host unless it is there already. -/
def modules (host : Host) : Inquiry (List Value) := fun inventory =>
  match inventory with
  | some records => (.done records, some records)
  | none => (⟨[.askedModules], host.modules⟩, host.modules.toOption)

end Inquiry

namespace Confinement

/-- The key of the module that an entry needs. -/
def moduleNameKey : Scalar := .text "module_name"

/-- The key of the version that the module needs. -/
def moduleVersionKey : Scalar := .text "module_version"

/-- The value at a name in a module record, or null. -/
def recordValue (name : String) (entries : Entries) : Value :=
  (Table.get? (.text name) entries).getD .null

/-- The records with the given module name.  Every record has to be a mapping. -/
def recordsNamed (name : Value) : List Value → Except Fault (List Entries)
  | [] => .ok []
  | .mapping entries :: rest => do
    let more ← recordsNamed name rest
    .ok (if recordValue "name" entries == name then entries :: more else more)
  | _ :: _ => .error .noMembers

/-- Whether the version of a module record is in the required range. -/
def versionInRange (entries : Entries) (required : Value) : Except Fault Bool := do
  let current ← Version.ofValue (recordValue "version" entries)
  let range ← VersionRange.ofValue required
  range.contains current

/-- Whether the module is installed, in the version required if one is.  The first record of
the module counts.  A version or range that cannot be read is noted and does not hold. -/
def moduleApplies (host : Host) (name : Value) (required : Option Value) : Inquiry Bool := do
  let records ← Inquiry.modules host
  match ← Inquiry.tell (.of (recordsNamed name records)) with
  | [] => pure false
  | entries :: _ =>
    match required with
    | none => pure true
    | some range =>
      if !range.truthy then pure true
      else
        match versionInRange entries range with
        | .ok verdict => pure verdict
        | .error fault =>
          if fault.isVersionFault then do
            Inquiry.note (.unmatchedModule (.mapping entries) range)
            pure false
          else Inquiry.fail fault

/-- Whether one condition of a confinement holds. -/
def holds (host : Host) (confine : Entries) (key : Scalar) (expected : Value) :
    Inquiry Bool :=
  if key == moduleNameKey then moduleApplies host expected (confine.get? moduleVersionKey)
  else if key == moduleVersionKey && confine.has moduleNameKey then pure true
  else do
    let fact ← Inquiry.fact host key
    pure (fact.isNull || matchesFact fact expected)

/-- Whether the given conditions of a confinement hold, asked in turn up to the first that
does not. -/
def allHold (host : Host) (confine : Entries) : List (Scalar × Value) → Inquiry Bool
  | [] => pure true
  | (key, expected) :: rest => do
    if ← holds host confine key expected then allHold host confine rest else pure false

/-- Whether the body has a value in its settings. -/
def hasSettingsValue (body : Entries) : Bool :=
  match body.get? (.text "settings") with
  | some (.mapping settings) => Table.has (.text "value") settings
  | _ => false

/-- Whether an entry applies on the host.  A confinement that is neither empty nor a mapping is
passed over for an entry with a settings value, and a fault otherwise. -/
def applies (host : Host) (location : String) (name : Scalar) (body : Value) : Inquiry Bool :=
  match body with
  | .mapping entries =>
    match Table.get? (.text "confine") entries with
    | none => pure true
    | some confine =>
      if !confine.truthy then pure true
      else
        match confine with
        | .mapping conditions => allHold host conditions conditions
        | _ =>
          if hasSettingsValue entries then do
            Inquiry.note (.ignoredConfinement name location)
            pure true
          else Inquiry.fail (.badConfinement location)
  | _ => pure true

/-- The verdicts on entries, in order. -/
def judge (host : Host) (location : String) : List (Scalar × Value) → Inquiry (List Bool)
  | [] => pure []
  | (name, body) :: rest => do
    let verdict ← applies host location name body
    let more ← judge host location rest
    pure (verdict :: more)

/-- The entries whose verdict is as given. -/
def withVerdict (wanted : Bool) (entries : Entries) (verdicts : List Bool) : Entries :=
  ((entries.zip verdicts).filter fun e => e.2 == wanted).map Prod.fst

/-- A note for each of the names that fail their confinement. -/
def noteRejected (location : String) : List Scalar → Inquiry Unit
  | [] => pure ()
  | name :: rest => do
    Inquiry.note (.outsideConfinement name location)
    noteRejected location rest

/-- The entries that apply on the host.  All entries are judged before any is dropped. -/
def apply (host : Host) (location : String) (entries : Entries) : Inquiry Entries := do
  let verdicts ← judge host location entries
  noteRejected location (withVerdict false entries verdicts).keys
  pure (withVerdict true entries verdicts)

/-- A mapping after it has been pruned: what it holds, and the fault that ended the work early, if
one did. -/
structure Pruned where
  entries : Entries
  fault : Option Fault

/-- Names dropped from a mapping one after the other, with a note for each. -/
def dropAll (location : String) : List Scalar → Entries → Inquiry Entries
  | [], entries => pure entries
  | name :: rest, entries => do
    Inquiry.note (.outsideConfinement name location)
    dropAll location rest (entries.erase name)

/-- A mapping pruned in its place: after all entries have been judged, those that do not apply are
dropped from it one by one. -/
def prune (host : Host) (location : String) (entries : Entries) : Inquiry Pruned := do
  match ← Inquiry.attempt (judge host location entries) with
  | .ok verdicts => do
    let left ← dropAll location (withVerdict false entries verdicts).keys entries
    pure ⟨left, none⟩
  | .error fault => pure ⟨entries, some fault⟩

end Confinement

end ProfileCompiler
