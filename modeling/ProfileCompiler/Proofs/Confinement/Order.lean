import ProfileCompiler.Proofs.Confinement.Facts
import ProfileCompiler.Proofs.Table.Permutation

/-!
# The order of conditions

What each condition of a confinement asks for can be said without the others' places: `Fulfilled`.
An entry applies if all its conditions are fulfilled, in whatever order they are written.

The order shows in one case alone.  Holding the version of a module against the required range can
end in a fault that is neither a bad version nor a bad range (`Falters`).  Then judging ends in that
fault as soon as it gets to `module_name`, which it does if the conditions written before are
fulfilled.  `alone_applies_of_perm` states both.
-/

namespace ProfileCompiler

namespace Confinement

open Inquiry

/-! ## Modules -/

/-- The first record of the given name. -/
def record? (records : List Entries) (name : Value) : Option Entries :=
  records.find? fun record => recordValue "name" record == name

/-- The version in a record and a range can be read, and the version is in the range. -/
def InRange (record : Entries) (range : Value) : Prop :=
  ∃ version bounds, Version.ofValue (recordValue "version" record) = .ok version ∧
    VersionRange.ofValue range = .ok bounds ∧ bounds.contains version = .ok true

/-- A module is installed, and its version is in the range if one is required. -/
def Installed (records : List Entries) (name : Value) (required : Option Value) : Prop :=
  ∃ record, record? records name = some record ∧
    ∀ range, required = some range → range.truthy = true → InRange record range

/-- A module is installed, and holding its version against the required range ends in a fault that
is no version fault. -/
def Falters (records : List Entries) (name : Value) (required : Option Value) (fault : Fault) :
    Prop :=
  ∃ record range, record? records name = some record ∧ required = some range ∧
    range.truthy = true ∧ versionInRange record range = .error fault ∧
    fault.isVersionFault = false

lemma versionInRange_eq_true_iff {record : Entries} {range : Value} :
    versionInRange record range = .ok true ↔ InRange record range := by
  unfold versionInRange InRange
  cases Version.ofValue (recordValue "version" record) with
  | error fault => simp [bind, Except.bind]
  | ok version => cases VersionRange.ofValue range <;> simp [bind, Except.bind]

variable {host : Host} {records : List Entries}

lemma recordsNamed_mappings (name : Value) (records : List Entries) :
    recordsNamed name (records.map .mapping) =
      .ok (records.filter fun record => recordValue "name" record == name) := by
  induction records with
  | nil => rfl
  | cons record rest ih =>
    rw [List.map_cons, List.filter_cons]
    unfold recordsNamed
    rw [ih]
    show Except.ok _ = _
    split <;> rfl

/-- What the version of a module comes to when it is held against a required range. -/
def versionVerdict (record : Entries) (required : Option Value) : Except Fault Bool :=
  match required with
  | none => .ok true
  | some range =>
    if range.truthy then
      match versionInRange record range with
      | .ok verdict => .ok verdict
      | .error fault => if fault.isVersionFault then .ok false else .error fault
    else .ok true

lemma alone_moduleApplies (hmodules : host.modules = .ok (records.map .mapping)) (name : Value)
    (required : Option Value) :
    (moduleApplies host name required).alone =
      match record? records name with
      | none => .ok false
      | some record => versionVerdict record required := by
  show (andThen (modules host) _ none).1.outcome = _
  simp only [andThen, modules, hmodules, bind, Inquiry.tell, Told.of, recordsNamed_mappings]
  unfold record?
  rw [← List.head?_filter]
  cases records.filter fun record => recordValue "name" record == name with
  | nil => rfl
  | cons record rest =>
    unfold versionVerdict
    cases required with
    | none => rfl
    | some range =>
      simp only [List.head?_cons]
      cases range.truthy with
      | false => rfl
      | true =>
        cases versionInRange record range with
        | ok verdict => rfl
        | error fault => cases hfault : fault.isVersionFault <;> simp [hfault] <;> rfl

lemma versionVerdict_eq_true_iff {record : Entries} {required : Option Value} :
    versionVerdict record required = .ok true ↔
      ∀ range, required = some range → range.truthy = true → InRange record range := by
  unfold versionVerdict
  cases required with
  | none => simp
  | some range =>
    simp only [Option.some.injEq, forall_eq', ← versionInRange_eq_true_iff]
    cases range.truthy with
    | false => simp
    | true =>
      cases versionInRange record range with
      | ok verdict => simp
      | error fault => cases hfault : fault.isVersionFault <;> simp [hfault]

lemma versionVerdict_eq_error_iff {record : Entries} {required : Option Value} {fault : Fault} :
    versionVerdict record required = .error fault ↔
      ∃ range, required = some range ∧ range.truthy = true ∧
        versionInRange record range = .error fault ∧ fault.isVersionFault = false := by
  unfold versionVerdict
  cases required with
  | none => simp
  | some range =>
    simp only [Option.some.injEq, exists_eq_left']
    cases range.truthy with
    | false => simp
    | true =>
      cases versionInRange record range with
      | ok verdict => simp
      | error other =>
        cases hother : other.isVersionFault with
        | true =>
          simp only [hother, if_true, reduceCtorEq, false_iff, true_and]
          rintro ⟨heq, hno⟩
          rw [← Except.error.inj heq, hother] at hno
          cases hno
        | false =>
          simp only [hother, if_true, Bool.false_eq_true, if_false, true_and, iff_self_and]
          intro heq
          rw [← Except.error.inj heq, hother]

lemma alone_moduleApplies_eq_true_iff (hmodules : host.modules = .ok (records.map .mapping))
    {name : Value} {required : Option Value} :
    (moduleApplies host name required).alone = .ok true ↔ Installed records name required := by
  rw [alone_moduleApplies hmodules]
  unfold Installed
  cases record? records name with
  | none => simp
  | some record => simp [versionVerdict_eq_true_iff]

lemma alone_moduleApplies_eq_error_iff (hmodules : host.modules = .ok (records.map .mapping))
    {name : Value} {required : Option Value} {fault : Fault} :
    (moduleApplies host name required).alone = .error fault ↔
      Falters records name required fault := by
  rw [alone_moduleApplies hmodules]
  unfold Falters
  cases record? records name with
  | none => simp
  | some record => simp [versionVerdict_eq_error_iff]

/-! ## Conditions without their places -/

/-- A condition is fulfilled.  `module_name` asks for a module, in the version that stands beside it
if there is one; `module_version` beside it asks for nothing; and any other key asks for a fact,
which may be unknown or null and otherwise has to fit what is expected. -/
def Fulfilled (facts : Entries) (records : List Entries) (conditions : Entries) (key : String)
    (expected : Value) : Prop :=
  if key = "module_name" then
    Installed records expected (conditions.get? moduleVersionKey)
  else
    (key = "module_version" ∧ conditions.has moduleNameKey = true) ∨
      ∀ fact, Site.Names facts (.text key) fact → fact.isNull = true ∨ Fits fact expected

/-- The host of facts and module records. -/
def furnish (facts : Entries) (records : List Entries) : Host :=
  Site.toHost ⟨[], facts, .list (records.map .mapping)⟩

variable {facts conditions : Entries} {key : String} {expected : Value}

lemma asksFact_iff :
    asksFact conditions (.text key) = true ↔
      key ≠ "module_name" ∧ ¬ (key = "module_version" ∧ conditions.has moduleNameKey = true) := by
  simp only [asksFact, moduleNameKey, moduleVersionKey, Scalar.text_beq_text, Bool.and_eq_true,
    Bool.not_eq_true', beq_eq_false_iff_ne, ne_eq, Bool.and_eq_false_iff, not_and,
    Bool.not_eq_true]
  refine and_congr_right fun _ => ?_
  by_cases h : key = "module_version" <;> simp [h]

/-- A fact that is asked for by a text is never missing. -/
lemma verdict_of_asksFact (facts : Entries) (records : List Entries) (expected : Value)
    (h : asksFact conditions (.text key) = true) :
    ∃ held, verdict (furnish facts records) conditions (.text key, expected) = .ok held ∧
      (held = true ↔ ∀ fact, Site.Names facts (.text key) fact →
        fact.isNull = true ∨ Fits fact expected) := by
  rw [verdict_fact h]
  show ∃ held, (Site.fact facts (.text key) >>= _) = _ ∧ _
  by_cases hknown : ∃ fact, Site.Names facts (.text key) fact
  · obtain ⟨fact, hfact⟩ := hknown
    rw [Site.fact_of_names hfact]
    refine ⟨_, rfl, ?_⟩
    rw [Bool.or_eq_true, matchesFact_iff]
    constructor
    · intro hfits other hother
      obtain rfl : fact = other :=
        Except.ok.inj ((Site.fact_of_names hfact).symm.trans (Site.fact_of_names hother))
      exact hfits
    · exact fun hall => hall fact hfact
  · have hunknown : ∀ fact, ¬ Site.Names facts (.text key) fact := not_exists.1 hknown
    rw [Site.fact_text_of_not_names hunknown]
    exact ⟨true, rfl, iff_of_true rfl fun fact hfact => absurd hfact (hunknown fact)⟩

lemma verdict_eq_true_iff :
    verdict (furnish facts records) conditions (.text key, expected) = .ok true ↔
      Fulfilled facts records conditions key expected := by
  unfold Fulfilled
  split
  · rename_i hname
    rw [hname]
    exact (verdict_moduleName expected) ▸ alone_moduleApplies_eq_true_iff rfl
  · rename_i hname
    by_cases hversion : key = "module_version" ∧ conditions.has moduleNameKey = true
    · rw [hversion.1]
      exact iff_of_true (verdict_moduleVersion expected hversion.2) (.inl ⟨rfl, hversion.2⟩)
    · obtain ⟨held, hheld, hiff⟩ :=
        verdict_of_asksFact facts records expected (asksFact_iff.2 ⟨hname, hversion⟩)
      rw [hheld, or_iff_right hversion, ← hiff, Except.ok.injEq]

lemma verdict_eq_error_iff {fault : Fault} :
    verdict (furnish facts records) conditions (.text key, expected) = .error fault ↔
      key = "module_name" ∧
        Falters records expected (conditions.get? moduleVersionKey) fault := by
  by_cases hname : key = "module_name"
  · rw [hname]
    refine (verdict_moduleName expected) ▸ (alone_moduleApplies_eq_error_iff rfl).trans ?_
    simp
  · refine iff_of_false (fun hfault => ?_) fun h => hname h.1
    by_cases hversion : key = "module_version" ∧ conditions.has moduleNameKey = true
    · rw [hversion.1] at hfault
      cases (verdict_moduleVersion expected hversion.2).symm.trans hfault
    · obtain ⟨held, hheld, -⟩ :=
        verdict_of_asksFact facts records expected (asksFact_iff.2 ⟨hname, hversion⟩)
      cases hheld.symm.trans hfault

/-- An entry applies if all its conditions are fulfilled, in whatever order they are written.
Judging it ends in a fault if and only if holding the version of the module against the range does,
in a fault that is no version fault, and the conditions written before `module_name` are
fulfilled. -/
theorem alone_applies_of_perm {entries order : Entries}
    (hconfine : Table.get? (.text "confine") entries = some (.mapping order))
    (hperm : order.Perm conditions) (hdistinct : conditions.Distinct)
    (htexts : ∀ c ∈ conditions, ∃ key, c.1 = .text key) (location : String) (name : Scalar) :
    ((applies (furnish facts records) location name (.mapping entries)).alone = .ok true ↔
      ∀ key expected, (.text key, expected) ∈ conditions →
        Fulfilled facts records conditions key expected) ∧
    ∀ fault, (applies (furnish facts records) location name (.mapping entries)).alone =
        .error fault ↔
      ∃ before needed after, order = before ++ (moduleNameKey, needed) :: after ∧
        Falters records needed (conditions.get? moduleVersionKey) fault ∧
        ∀ key expected, (.text key, expected) ∈ before →
          Fulfilled facts records conditions key expected := by
  have hsame : ∀ k, order.get? k = conditions.get? k :=
    Table.get?_of_perm hperm (Table.distinct_of_perm hperm.symm hdistinct)
  have hverdict : ∀ c, verdict (furnish facts records) order c =
      verdict (furnish facts records) conditions c :=
    verdict_congr (by rw [Table.has, Table.has, hsame]) (hsame _)
  -- Every condition is a text with a value, and it holds if it is fulfilled.
  have hrow : ∀ row : List (Scalar × Value), (∀ c ∈ row, c ∈ conditions) →
      ((∀ c ∈ row, verdict (furnish facts records) order c = .ok true) ↔
        ∀ key expected, (.text key, expected) ∈ row →
          Fulfilled facts records conditions key expected) := by
    intro row hsub
    constructor
    · intro h key expected hmem
      exact verdict_eq_true_iff.1 ((hverdict _).symm.trans (h _ hmem))
    · intro h c hmem
      obtain ⟨key, hkey⟩ := htexts c (hsub c hmem)
      obtain ⟨k, expected⟩ := c
      cases hkey
      exact (hverdict _).trans (verdict_eq_true_iff.2 (h key expected hmem))
  rw [applies_of_confine hconfine]
  refine ⟨?_, fun fault => ?_⟩
  · rw [alone_allHold_eq_true_iff, hrow order fun c hc => hperm.mem_iff.1 hc]
    simp only [hperm.mem_iff]
  · rw [alone_allHold_eq_error_iff]
    constructor
    · rintro ⟨before, c, after, heq, hbefore, hc⟩
      have hmem : ∀ b ∈ before ++ c :: after, b ∈ conditions :=
        fun b hb => hperm.mem_iff.1 (heq ▸ hb)
      obtain ⟨key, hkey⟩ := htexts c (hmem c (by simp))
      obtain ⟨k, expected⟩ := c
      cases hkey
      obtain ⟨rfl, hfalters⟩ := verdict_eq_error_iff.1 ((hverdict _).symm.trans hc)
      exact ⟨before, expected, after, heq, hfalters,
        (hrow before fun b hb => hmem b (by simp [hb])).1 hbefore⟩
    · rintro ⟨before, needed, after, heq, hfalters, hbefore⟩
      refine ⟨before, _, after, heq, (hrow before fun b hb => ?_).2 hbefore, ?_⟩
      · exact hperm.mem_iff.1 (by simp [heq, hb])
      · exact (hverdict _).trans (verdict_eq_error_iff.2 ⟨rfl, hfalters⟩)

/-- A module, a range whose letters only look like those of a version, and a fact that does not
fit. -/
def lookalike : Entries :=
  [(moduleNameKey, .text "m"), (moduleVersionKey, .text "~=1.2po\u017ft1"),
    (.text "os.family", .text "!Debian")]

/-- With the fact in front the entry does not apply.  With the module in front judging it ends in a
fault, so holding the version against the range does. -/
theorem alone_applies_of_perm_lookalike :
    let facts : Entries := [(.text "os", .ofTexts [("family", .text "Debian")])]
    let record : Entries := [(.text "name", .text "m"), (.text "version", .text "1.0.post1")]
    let judged (order : Entries) :=
      (applies (furnish facts [record]) "l" (.text "e")
        (.mapping [(.text "confine", .mapping order)])).alone
    (lookalike.Distinct ∧ ∀ c ∈ lookalike, ∃ key, c.1 = .text key) ∧
      judged lookalike = .error .unusableClause ∧
      lookalike.reverse.Perm lookalike ∧ judged lookalike.reverse = .ok false ∧
      Falters [record] (.text "m") (lookalike.get? moduleVersionKey) .unusableClause ∧
      ¬ Fulfilled facts [record] lookalike "os.family" (.text "!Debian") := by
  intro facts record judged
  have hdistinct : lookalike.Distinct := by
    unfold Table.Distinct
    decide +kernel
  have htexts : ∀ c ∈ lookalike, ∃ key, c.1 = .text key := by
    simp [lookalike, moduleNameKey, moduleVersionKey]
  have hperm : lookalike.reverse.Perm lookalike := List.reverse_perm lookalike
  have hfront : judged lookalike = .error .unusableClause := by decide +kernel
  have hback : judged lookalike.reverse = .ok false := by decide +kernel
  have hread (order : Entries) :
      Table.get? (.text "confine") [(Scalar.text "confine", Value.mapping order)] =
        some (.mapping order) := rfl
  obtain ⟨before, needed, after, heq, hfalters, -⟩ :=
    ((alone_applies_of_perm (hread lookalike) (.refl _) hdistinct htexts "l" (.text "e")).2
      .unusableClause).1 hfront
  have hneeded : needed = .text "m" := by
    have hmem : (moduleNameKey, needed) ∈ lookalike := heq ▸ by simp
    simpa [lookalike, moduleNameKey, moduleVersionKey] using hmem
  rw [hneeded] at hfalters
  refine ⟨⟨hdistinct, htexts⟩, hfront, hperm, hback, hfalters, fun hfamily => ?_⟩
  -- If the fact were as wanted, judging in reverse order would get to the fault as well.
  have hrest : ∀ key expected,
      (Scalar.text key, expected) ∈ [(.text "os.family", .text "!Debian"),
        (moduleVersionKey, .text "~=1.2po\u017ft1")] →
      Fulfilled facts [record] lookalike key expected := by
    intro key expected hmem
    simp only [List.mem_cons, List.not_mem_nil, Prod.mk.injEq, moduleVersionKey,
      Scalar.text.injEq, or_false] at hmem
    obtain ⟨rfl, rfl⟩ | ⟨rfl, rfl⟩ := hmem
    · exact hfamily
    · exact .inl ⟨rfl, by decide +kernel⟩
  have hfault : judged lookalike.reverse = .error .unusableClause :=
    ((alone_applies_of_perm (hread lookalike.reverse) hperm hdistinct htexts "l" (.text "e")).2
      .unusableClause).2 ⟨_, .text "m", [], rfl, hfalters, hrest⟩
  cases hback.symm.trans hfault

end Confinement

end ProfileCompiler
