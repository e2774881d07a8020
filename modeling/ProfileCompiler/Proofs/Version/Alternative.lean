import ProfileCompiler.Proofs.Text.Pieces
import ProfileCompiler.Version.Range

/-!
# Ranges as checks of their alternatives

A range checks its alternatives in turn up to the first that is met (`contains_eq_anyOf`), and an
alternative checks its clauses together (`accepts_both`), so that a clause that cannot be used
counts even if another one is not met.

A text without bars is a single alternative, and the clauses that are written in several texts are
read one text after the other (`readClauses?_append`).
-/

namespace ProfileCompiler

/-! ## Checks -/

/-- Two checks together.  A fault of either is a fault, and the first one counts. -/
def bothOf : Except Fault Bool → Except Fault Bool → Except Fault Bool
  | .error fault, _ => .error fault
  | .ok _, .error fault => .error fault
  | .ok b, .ok c => .ok (b && c)

/-- Checks together. -/
def allOf (checks : List (Except Fault Bool)) : Except Fault Bool := checks.foldr bothOf (.ok true)

/-- Checks in turn, up to the first that is met. -/
def anyOf : List (Except Fault Bool) → Except Fault Bool
  | [] => .ok false
  | .error fault :: _ => .error fault
  | .ok true :: _ => .ok true
  | .ok false :: rest => anyOf rest

/-- Checks together without faults are met if each of them is. -/
lemma allOf_eq_ok {checks : List (Except Fault Bool)} (h : ∀ check ∈ checks, ∃ b, check = .ok b) :
    ∃ met, allOf checks = .ok met ∧ (met = true ↔ ∀ check ∈ checks, check = .ok true) := by
  induction checks with
  | nil => exact ⟨true, rfl, by simp⟩
  | cons check checks ih =>
    obtain ⟨⟨b, rfl⟩, hchecks⟩ := List.forall_mem_cons.1 h
    obtain ⟨met, hmet, hiff⟩ := ih hchecks
    have hall : allOf (.ok b :: checks) = bothOf (.ok b) (allOf checks) := rfl
    refine ⟨b && met, by rw [hall, hmet]; rfl, ?_⟩
    rw [Bool.and_eq_true, hiff, List.forall_mem_cons, Except.ok.injEq]

/-- Checks in turn without faults are met if one of them is. -/
lemma anyOf_eq_ok {checks : List (Except Fault Bool)} (h : ∀ check ∈ checks, ∃ b, check = .ok b) :
    ∃ met, anyOf checks = .ok met ∧ (met = true ↔ ∃ check ∈ checks, check = .ok true) := by
  induction checks with
  | nil => exact ⟨false, rfl, by simp⟩
  | cons check checks ih =>
    obtain ⟨⟨b, rfl⟩, hchecks⟩ := List.forall_mem_cons.1 h
    cases b with
    | true => exact ⟨true, rfl, by simp⟩
    | false =>
      obtain ⟨met, hmet, hiff⟩ := ih hchecks
      exact ⟨met, hmet, by rw [hiff]; simp⟩

namespace Alternative

/-- The alternative that asks for what two alternatives ask for. -/
def both (a b : Alternative) : Alternative := ⟨a.clauses ++ b.clauses, a.fault.or b.fault⟩

lemma ofClauses_append (xs ys : List (Except Fault Clause)) :
    ofClauses (xs ++ ys) = (ofClauses xs).both (ofClauses ys) := by
  induction xs with
  | nil => rfl
  | cons x xs ih =>
    cases x with
    | error fault => rw [List.cons_append, ofClauses, ih]; rfl
    | ok clause => rw [List.cons_append, ofClauses, ih]; rfl

lemma accepts_both (a b : Alternative) (v : Version) :
    (a.both b).accepts v = bothOf (a.accepts v) (b.accepts v) := by
  obtain ⟨as, _ | f⟩ := a
  · obtain ⟨bs, _ | g⟩ := b
    · simp [both, accepts, bothOf, List.all_append]
    · rfl
  · rfl

end Alternative

namespace VersionRange

lemma contains_eq_anyOf (range : VersionRange) (v : Version) :
    range.contains v = anyOf (range.alternatives.map fun a => a.accepts v) := by
  rw [contains]
  induction range.alternatives with
  | nil => rfl
  | cons a rest ih =>
    rw [meetsOne, List.map_cons, ih]
    rcases a.accepts v with _ | _ | _ <;> rfl

/-! ## Alternatives -/

/-- A text without bars is a single alternative. -/
lemma alternativeTexts_eq_singleton {text : List Char} (h : ∀ c ∈ text, c ≠ '|') :
    alternativeTexts text = [text] := by
  induction text with
  | nil => rfl
  | cons c text ih =>
    obtain ⟨hc, htext⟩ := List.forall_mem_cons.1 h
    rw [alternativeTexts, ih htext]
    intro rest heq
    exact absurd heq hc

/-- The text before two bars is an alternative, if it has no bar itself. -/
lemma alternativeTexts_append {text : List Char} (h : ∀ c ∈ text, c ≠ '|') (rest : List Char) :
    alternativeTexts (text ++ '|' :: '|' :: rest) = text :: alternativeTexts rest := by
  induction text with
  | nil => rfl
  | cons c text ih =>
    obtain ⟨hc, htext⟩ := List.forall_mem_cons.1 h
    rw [List.cons_append, alternativeTexts, ih htext]
    intro rest heq
    exact absurd heq hc

/-- The alternative of a text in a range. -/
def readAlternative (source : String) (text : List Char) : Except Fault Alternative := do
  let texts ← clauseTexts text
  match readClauses? texts with
  | none => .error (.badRange (Text.quoted source))
  | some alternative => .ok alternative

lemma alternativesOf_eq_mapM (source : String) (texts : List (List Char)) :
    alternativesOf source texts = texts.mapM (readAlternative source) := by
  induction texts with
  | nil => rfl
  | cons text more ih =>
    rw [alternativesOf, List.mapM_cons, readAlternative, ih]
    cases clauseTexts text with
    | error fault => rfl
    | ok texts =>
      cases h : readClauses? texts <;> simp [h, bind, Except.bind, pure, Except.pure]

/-- A text without bars is a range of one alternative. -/
lemma ofText_ofList {text : List Char} (h : ∀ c ∈ text, c ≠ '|') :
    ofText (String.ofList text) =
      (readAlternative (String.ofList text) text).map fun a => ⟨String.ofList text, [a]⟩ := by
  rw [ofText, String.toList_ofList, alternativeTexts_eq_singleton h, alternativesOf_eq_mapM,
    List.mapM_cons, List.mapM_nil]
  cases readAlternative (String.ofList text) text <;> rfl

/-! ## Terms -/

/-- A text that is cut nowhere: it has no bar, no comma and no blank. -/
def IsPlain (text : List Char) : Prop :=
  ∀ c ∈ text, c ≠ '|' ∧ c ≠ ',' ∧ Text.isBlank c = false

instance : DecidablePred IsPlain := fun text =>
  decidable_of_iff ((text.all fun c => c != '|' && c != ',' && !Text.isBlank c) = true)
    (by simp [IsPlain, and_assoc])

lemma isPlain_append {xs ys : List Char} : IsPlain (xs ++ ys) ↔ IsPlain xs ∧ IsPlain ys :=
  List.forall_mem_append

lemma closeUp_eq_self {text : List Char} (h : ∀ c ∈ text, Text.isBlank c = false)
    (afterOperator : Bool) : closeUp afterOperator text = text := by
  induction text generalizing afterOperator with
  | nil => rfl
  | cons c text ih =>
    obtain ⟨hc, htext⟩ := List.forall_mem_cons.1 h
    rw [closeUp, hc, Bool.and_false, if_neg Bool.false_ne_true, ih htext]

/-- The clauses of an alternative that is no hyphen range are those of its terms.  A wildcard
alone is a term without clauses. -/
lemma clauseTexts_eq_mapM {text core : List Char} (hstrip : Text.strip text = core)
    (hne : core ≠ []) (hhyphen : ['-'] ∉ Text.words core) :
    clauseTexts text =
      ((Text.words (closeUp false core)).mapM Term.clauses).map List.flatten := by
  subst hstrip
  rw [clauseTexts]
  split
  · rename_i h
    rw [Bool.or_eq_true, List.isEmpty_iff, or_iff_right hne] at h
    generalize Text.strip text = core at h
    simp only [Term.isWildcard, Bool.or_eq_true, beq_iff_eq, or_assoc] at h
    rcases h with rfl | rfl | rfl <;> rfl
  · split
    · rename_i low high heq
      exact absurd (by rw [heq]; simp) hhyphen
    · cases (Text.words (closeUp false (Text.strip text))).mapM Term.clauses <;> rfl

/-- A text without blanks is a term. -/
lemma clauseTexts_of_isPlain {text : List Char} (hne : text ≠ []) (hhyphen : text ≠ ['-'])
    (h : IsPlain text) : clauseTexts text = Term.clauses text := by
  have hblank : ∀ c ∈ text, Text.isBlank c = false := fun c hc => (h c hc).2.2
  have hwords := Text.words_eq_singleton hne hblank
  have hnone : ['-'] ∉ Text.words text := by simpa [hwords] using hhyphen.symm
  rw [clauseTexts_eq_mapM (Text.strip_eq_self_of_forall hblank) hne hnone, closeUp_eq_self hblank,
    hwords]
  cases h : Term.clauses text <;> simp [h, bind, Except.bind, pure, Except.pure, Except.map]

/-! ## Clauses -/

lemma readClauses?_append (xs ys : List (List Char)) :
    readClauses? (xs ++ ys) =
      (readClauses? xs).bind fun a => (readClauses? ys).map fun b => a.both b := by
  simp only [readClauses?, List.flatMap_append, List.filter_append, List.mapM_append]
  generalize (List.filter _ (xs.flatMap _)).mapM Clause.read? = left
  generalize (List.filter _ (ys.flatMap _)).mapM Clause.read? = right
  cases left with
  | none => rfl
  | some as =>
    cases right with
    | none => rfl
    | some bs => exact congrArg some (Alternative.ofClauses_append as bs)

/-- Texts of which one part is no clause are not read. -/
lemma readClauses?_flatten_eq_none_iff {parts : List (List (List Char))} :
    readClauses? parts.flatten = none ↔ ∃ part ∈ parts, readClauses? part = none := by
  induction parts with
  | nil => simp [readClauses?]
  | cons part parts ih =>
    have hsplit : (∃ p ∈ part :: parts, readClauses? p = none) ↔
        readClauses? part = none ∨ ∃ p ∈ parts, readClauses? p = none := by simp
    rw [List.flatten_cons, readClauses?_append, hsplit, ← ih]
    cases readClauses? part <;> simp

/-- Plain texts are read one by one. -/
lemma readClauses?_eq_mapM {texts : List (List Char)}
    (h : ∀ text ∈ texts, text ≠ [] ∧ IsPlain text) :
    readClauses? texts = (texts.mapM Clause.read?).map Alternative.ofClauses := by
  have hpieces : texts.flatMap (Text.pieces (· == ',')) = texts := by
    induction texts with
    | nil => rfl
    | cons text texts ih =>
      obtain ⟨⟨-, hplain⟩, htexts⟩ := List.forall_mem_cons.1 h
      have hcomma : ∀ c ∈ text, (c == ',') = false := fun c hc => by simpa using (hplain c hc).2.1
      rw [List.flatMap_cons, ih htexts, Text.pieces_eq_singleton hcomma]
      rfl
  have hfilter : (texts.filter fun text => !text.all Text.isBlank) = texts := by
    refine List.filter_eq_self.2 fun text htext => ?_
    obtain ⟨hne, hplain⟩ := h text htext
    obtain ⟨c, text, rfl⟩ := List.exists_cons_of_ne_nil hne
    simp [(hplain c List.mem_cons_self).2.2]
  simp only [readClauses?, hpieces, hfilter]

/-- Plain texts that are clauses make an alternative of these clauses. -/
lemma readClauses?_eq_some {texts : List (List Char)} {clauses : List Clause}
    (h : List.Forall₂ (fun text clause => text ≠ [] ∧ IsPlain text ∧
      Clause.read? text = some (.ok clause)) texts clauses) :
    readClauses? texts = some ⟨clauses, none⟩ := by
  have hread : texts.mapM Clause.read? = some (clauses.map .ok) := by
    induction h with
    | nil => rfl
    | cons hfirst _ ih => rw [List.mapM_cons, hfirst.2.2, ih]; rfl
  have hclauses : Alternative.ofClauses (clauses.map .ok) = ⟨clauses, none⟩ := by
    clear h hread
    induction clauses with
    | nil => rfl
    | cons clause clauses ih => rw [List.map_cons, Alternative.ofClauses, ih]
  rw [readClauses?_eq_mapM, hread, Option.map_some, hclauses]
  clear hread hclauses
  induction h with
  | nil => exact List.forall_mem_nil _
  | cons hfirst _ ih => exact List.forall_mem_cons.2 ⟨⟨hfirst.1, hfirst.2.1⟩, ih⟩

end VersionRange

end ProfileCompiler
