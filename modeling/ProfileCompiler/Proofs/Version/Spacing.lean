import Mathlib.Data.List.Basic
import ProfileCompiler.Proofs.Version.Alternative

/-!
# Ranges as they are written

A range is written as terms, each of them a sign and a version text (`SpacedTerm`).  Blanks may
stand behind a sign that compares, have to stand between two terms, and may stand around the bars
between two alternatives (`WritesTerms`, `WritesRange`).

Whatever the blanks are, the alternatives of such a text are read from the terms with no blanks in
them (`alternativesOf_of_writes`).  What carries this is `closeUp_text`: the only blanks that are
taken out are those behind a sign, as no version text ends in a character of a sign.
-/

namespace ProfileCompiler

/-! ## Terms -/

/-- The signs that compare; blanks may follow them. -/
def comparisons : List (List Char) :=
  [['>', '='], ['<', '='], ['>'], ['<'], ['='], ['=', '='], ['!', '='], ['~', '=']]

/-- The signs that a version text has to follow directly, and no sign at all. -/
def shorthands : List (List Char) := [[], ['~'], ['~', '>'], ['^']]

/-- A text that may stand behind a sign.  It starts with no hyphen, and it holds no blank and no
character that means something else in a range.  Letters and digits of any script may stand in it,
and points, stars, plus signs, exclamation marks, hyphens and underscores among other characters. -/
structure IsVersionText (cs : List Char) : Prop where
  nonempty : cs ≠ []
  head : ∀ c ∈ cs.head?, c ≠ '-'
  plain : ∀ c ∈ cs, Text.isBlank c = false ∧ c ∉ ['<', '>', '=', '~', '^', '|', ',']

instance : DecidablePred IsVersionText := fun cs =>
  decidable_of_iff (cs ≠ [] ∧ cs.head? ≠ some '-' ∧
      (cs.all fun c => !Text.isBlank c && c ∉ ['<', '>', '=', '~', '^', '|', ',']) = true) (by
    simp only [List.all_eq_true, Bool.and_eq_true, Bool.not_eq_true', decide_eq_true_eq]
    exact ⟨fun ⟨hne, hhead, hplain⟩ => ⟨hne, fun c hc heq => hhead (heq ▸ hc), hplain⟩,
      fun h => ⟨h.nonempty, fun hhead => h.head '-' hhead rfl, h.plain⟩⟩)

/-- A term with the blanks behind its sign. -/
structure SpacedTerm where
  sign : List Char
  gap : List Char
  body : List Char
  gap_blank : ∀ c ∈ gap, Text.isBlank c = true
  isVersionText : IsVersionText body
  sign_mem : sign ∈ comparisons ∨ sign ∈ shorthands ∧ gap = []

namespace SpacedTerm

/-- The term as it is written. -/
def text (t : SpacedTerm) : List Char := t.sign ++ t.gap ++ t.body

/-- The term without its blanks. -/
def plain (t : SpacedTerm) : List Char := t.sign ++ t.body

end SpacedTerm

/-! ## Alternatives and ranges -/

/-- Terms written one after the other, with blanks between them. -/
inductive WritesTerms : List SpacedTerm → List Char → Prop
  | last (t : SpacedTerm) : WritesTerms [t] t.text
  | cons (t : SpacedTerm) {gap text : List Char} {ts : List SpacedTerm} (hne : gap ≠ [])
      (hgap : ∀ c ∈ gap, Text.isBlank c = true) (h : WritesTerms ts text) :
      WritesTerms (t :: ts) (t.text ++ gap ++ text)

/-- Alternatives written one after the other, with two bars between them and blanks around each of
them. -/
inductive WritesRange : List (List SpacedTerm) → List Char → Prop
  | last {ts : List SpacedTerm} {before text after : List Char}
      (hbefore : ∀ c ∈ before, Text.isBlank c = true) (hafter : ∀ c ∈ after, Text.isBlank c = true)
      (h : WritesTerms ts text) : WritesRange [ts] (before ++ text ++ after)
  | cons {ts : List SpacedTerm} {before text after rest : List Char} {more : List (List SpacedTerm)}
      (hbefore : ∀ c ∈ before, Text.isBlank c = true) (hafter : ∀ c ∈ after, Text.isBlank c = true)
      (h : WritesTerms ts text) (hmore : WritesRange more rest) :
      WritesRange (ts :: more) (before ++ text ++ after ++ '|' :: '|' :: rest)

/-! ## The characters of a term -/

lemma isBlank_of_mem_sign {sign : List Char} (h : sign ∈ comparisons ++ shorthands) :
    ∀ c ∈ sign, Text.isBlank c = false ∧ c ≠ '|' := by
  have hall : ∀ sign ∈ comparisons ++ shorthands,
      (sign.all fun c => !Text.isBlank c && c != '|') = true := by decide
  simpa using hall sign h

lemma ne_bar_of_isBlank {c : Char} (h : Text.isBlank c = true) : c ≠ '|' := by
  rintro rfl
  exact absurd h (by decide)

namespace SpacedTerm

variable (t : SpacedTerm)

lemma sign_mem_append : t.sign ∈ comparisons ++ shorthands :=
  List.mem_append.2 (t.sign_mem.imp_right And.left)

lemma isBlank_of_mem_plain {c : Char} (h : c ∈ t.plain) : Text.isBlank c = false := by
  rcases List.mem_append.1 h with h | h
  · exact (isBlank_of_mem_sign t.sign_mem_append c h).1
  · exact (t.isVersionText.plain c h).1

lemma plain_ne_nil : t.plain ≠ [] := by
  simp [plain, t.isVersionText.nonempty]

lemma body_ne_hyphen : t.body ≠ ['-'] := fun h =>
  t.isVersionText.head '-' (by rw [h]; rfl) rfl

lemma plain_ne_hyphen : t.plain ≠ ['-'] := by
  intro h
  rcases List.append_eq_singleton_iff.1 h with ⟨-, h⟩ | ⟨-, h⟩
  · exact t.body_ne_hyphen h
  · exact t.isVersionText.nonempty h

lemma text_eq_plain (h : t.gap = []) : t.text = t.plain := by
  rw [text, plain, h, List.append_nil]

lemma sign_mem_comparisons (h : t.gap ≠ []) : t.sign ∈ comparisons :=
  t.sign_mem.resolve_right fun hsign => h hsign.2

lemma sign_ne_nil (h : t.gap ≠ []) : t.sign ≠ [] := by
  intro hsign
  exact absurd (hsign ▸ t.sign_mem_comparisons h) (by decide)

/-- A term without blanks behind its sign is a word, and otherwise the sign is a word itself. -/
lemma words_text : Text.words t.text = [t.plain] ∨ Text.words t.text = [t.sign, t.body] := by
  by_cases hgap : t.gap = []
  · left
    rw [t.text_eq_plain hgap]
    exact Text.words_eq_singleton t.plain_ne_nil fun c => t.isBlank_of_mem_plain
  · right
    rw [text, Text.words_append_blanks_append hgap t.gap_blank,
      Text.words_eq_singleton (t.sign_ne_nil hgap) fun c hc =>
        (isBlank_of_mem_sign t.sign_mem_append c hc).1,
      Text.words_eq_singleton t.isVersionText.nonempty fun c hc => (t.isVersionText.plain c hc).1]
    rfl

lemma hyphen_not_mem_words : ['-'] ∉ Text.words t.text := by
  have hsign : t.sign ≠ ['-'] := by
    intro h
    exact absurd (h ▸ t.sign_mem_append) (by decide)
  rcases t.words_text with h | h <;> rw [h]
  · simpa using t.plain_ne_hyphen.symm
  · simpa using ⟨hsign.symm, t.body_ne_hyphen.symm⟩

lemma head?_text : ∀ c ∈ t.text.head?, Text.isBlank c = false := by
  intro c hc
  by_cases hgap : t.gap = []
  · rw [t.text_eq_plain hgap] at hc
    exact t.isBlank_of_mem_plain (List.mem_of_mem_head? hc)
  · rw [text, List.append_assoc, List.head?_append_of_ne_nil _ (t.sign_ne_nil hgap)] at hc
    exact (isBlank_of_mem_sign t.sign_mem_append c (List.mem_of_mem_head? hc)).1

lemma getLast?_text : ∀ c ∈ t.text.getLast?, Text.isBlank c = false := by
  intro c hc
  rw [text, List.getLast?_append_of_ne_nil _ t.isVersionText.nonempty] at hc
  exact (t.isVersionText.plain c (List.mem_of_getLast? hc)).1

lemma ne_bar_of_mem_text {c : Char} (h : c ∈ t.text) : c ≠ '|' := by
  simp only [text, List.mem_append] at h
  rcases h with (h | h) | h
  · exact (isBlank_of_mem_sign t.sign_mem_append c h).2
  · exact ne_bar_of_isBlank (t.gap_blank c h)
  · rintro rfl
    exact (t.isVersionText.plain '|' h).2 (by decide)

lemma text_ne_nil : t.text ≠ [] := by
  simp [text, t.isVersionText.nonempty]

end SpacedTerm

/-! ## Taking out the blanks -/

namespace VersionRange

/-- A text without blanks stays, and what follows it is behind its last character. -/
lemma closeUp_append {xs : List Char} (h : ∀ c ∈ xs, Text.isBlank c = false) (flag : Bool)
    (rest : List Char) : closeUp flag (xs ++ rest) =
      xs ++ closeUp (xs.foldl (fun _ c => c == '>' || c == '<' || c == '=') flag) rest := by
  induction xs generalizing flag with
  | nil => rfl
  | cons c xs ih =>
    obtain ⟨hc, hxs⟩ := List.forall_mem_cons.1 h
    rw [List.cons_append, closeUp, hc, Bool.and_false, if_neg Bool.false_ne_true, ih hxs]
    rfl

/-- Blanks behind a sign are taken out. -/
lemma closeUp_blanks {gap : List Char} (h : ∀ c ∈ gap, Text.isBlank c = true) (rest : List Char) :
    closeUp true (gap ++ rest) = closeUp true rest := by
  induction gap with
  | nil => rfl
  | cons c gap ih =>
    obtain ⟨hc, hgap⟩ := List.forall_mem_cons.1 h
    rw [List.cons_append, closeUp, hc, Bool.and_self, if_pos rfl, ih hgap]

/-- Other blanks stay. -/
lemma closeUp_false_blanks {gap : List Char} (h : ∀ c ∈ gap, Text.isBlank c = true)
    (rest : List Char) : closeUp false (gap ++ rest) = gap ++ closeUp false rest := by
  induction gap with
  | nil => rfl
  | cons c gap ih =>
    obtain ⟨hc, hgap⟩ := List.forall_mem_cons.1 h
    have hsign : (c == '>' || c == '<' || c == '=') = false := by
      rw [Bool.eq_false_iff]
      intro hsign
      simp only [Bool.or_eq_true, beq_iff_eq] at hsign
      rcases hsign with (rfl | rfl) | rfl <;> exact absurd hc (by decide)
    rw [List.cons_append, closeUp, Bool.false_and, if_neg Bool.false_ne_true, hsign, ih hgap]
    rfl

/-- No version text ends in a character of a sign. -/
lemma closeUp_body {body : List Char} (h : IsVersionText body) (flag : Bool) (rest : List Char) :
    closeUp flag (body ++ rest) = body ++ closeUp false rest := by
  have hlast := (h.plain _ (List.getLast_mem h.nonempty)).2
  simp only [List.mem_cons, not_or] at hlast
  have hflag : body.foldl (fun _ c => c == '>' || c == '<' || c == '=') flag = false := by
    rw [← List.dropLast_concat_getLast h.nonempty, List.foldl_append]
    simp [hlast]
  rw [closeUp_append fun c hc => (h.plain c hc).1, hflag]

/-- The blanks behind the sign of a term are taken out, and those behind the term stay. -/
lemma closeUp_text (t : SpacedTerm) (rest : List Char) :
    closeUp false (t.text ++ rest) = t.plain ++ closeUp false rest := by
  have hsign : ∀ c ∈ t.sign, Text.isBlank c = false := fun c hc =>
    (isBlank_of_mem_sign t.sign_mem_append c hc).1
  rw [SpacedTerm.text, SpacedTerm.plain, List.append_assoc, List.append_assoc, closeUp_append hsign,
    List.append_assoc]
  congr 1
  -- Either the sign ends in a character that takes out the blanks behind it, or there are none.
  rcases t.sign_mem with hcompare | ⟨-, hgap⟩
  · have hflag : ∀ sign ∈ comparisons,
        sign.foldl (fun _ c => c == '>' || c == '<' || c == '=') false = true := by decide
    rw [hflag t.sign hcompare, closeUp_blanks t.gap_blank, closeUp_body t.isVersionText]
  · rw [hgap, List.nil_append, closeUp_body t.isVersionText]

end VersionRange

/-! ## The words of an alternative -/

namespace WritesTerms

open VersionRange

variable {ts : List SpacedTerm} {text : List Char}

lemma ne_nil (h : WritesTerms ts text) : text ≠ [] := by
  cases h with
  | last t => exact t.text_ne_nil
  | cons t hne hgap h => simp [t.text_ne_nil]

lemma head? (h : WritesTerms ts text) : ∀ c ∈ text.head?, Text.isBlank c = false := by
  cases h with
  | last t => exact t.head?_text
  | cons t hne hgap h =>
    rw [List.append_assoc, List.head?_append_of_ne_nil _ t.text_ne_nil]
    exact t.head?_text

lemma getLast? (h : WritesTerms ts text) : ∀ c ∈ text.getLast?, Text.isBlank c = false := by
  induction h with
  | last t => exact t.getLast?_text
  | cons t hne hgap h ih =>
    rw [List.getLast?_append_of_ne_nil _ h.ne_nil]
    exact ih

lemma ne_bar_of_mem (h : WritesTerms ts text) : ∀ c ∈ text, c ≠ '|' := by
  induction h with
  | last t => exact fun c => t.ne_bar_of_mem_text
  | cons t hne hgap h ih =>
    simp only [List.forall_mem_append]
    exact ⟨⟨fun c => t.ne_bar_of_mem_text, fun c hc => ne_bar_of_isBlank (hgap c hc)⟩, ih⟩

/-- No word is a hyphen, so the text is not taken for a range with a hyphen. -/
lemma hyphen_not_mem_words (h : WritesTerms ts text) : ['-'] ∉ Text.words text := by
  induction h with
  | last t => exact t.hyphen_not_mem_words
  | cons t hne hgap h ih =>
    rw [Text.words_append_blanks_append hne hgap, List.mem_append, not_or]
    exact ⟨t.hyphen_not_mem_words, ih⟩

/-- Without the blanks behind signs the words are the terms. -/
lemma words_closeUp (h : WritesTerms ts text) :
    Text.words (closeUp false text) = ts.map SpacedTerm.plain := by
  have hword : ∀ t : SpacedTerm, Text.words t.plain = [t.plain] := fun t =>
    Text.words_eq_singleton t.plain_ne_nil fun c => t.isBlank_of_mem_plain
  induction h with
  | last t =>
    rw [← List.append_nil t.text, closeUp_text, closeUp, List.append_nil, hword]
    rfl
  | cons t hne hgap h ih =>
    rw [List.append_assoc, closeUp_text, closeUp_false_blanks hgap, ← List.append_assoc,
      Text.words_append_blanks_append hne hgap, hword, ih]
    rfl

/-- The clauses of an alternative are those of its terms without blanks. -/
lemma clauseTexts_eq {before after : List Char} (hbefore : ∀ c ∈ before, Text.isBlank c = true)
    (hafter : ∀ c ∈ after, Text.isBlank c = true) (h : WritesTerms ts text) :
    clauseTexts (before ++ text ++ after) =
      (ts.mapM fun t => Term.clauses t.plain).map List.flatten := by
  rw [clauseTexts_eq_mapM (Text.strip_append hbefore hafter h.ne_nil h.head? h.getLast?) h.ne_nil
    h.hyphen_not_mem_words, h.words_closeUp, List.mapM_map]
  rfl

end WritesTerms

/-! ## The alternatives of a range -/

namespace VersionRange

/-- The alternative of terms without blanks in a range. -/
def readTerms (source : String) (ts : List SpacedTerm) : Except Fault Alternative := do
  let parts ← ts.mapM fun t => Term.clauses t.plain
  match readClauses? parts.flatten with
  | none => .error (.badRange (Text.quoted source))
  | some alternative => .ok alternative

lemma readAlternative_eq {source : String} {ts : List SpacedTerm} {before text after : List Char}
    (hbefore : ∀ c ∈ before, Text.isBlank c = true) (hafter : ∀ c ∈ after, Text.isBlank c = true)
    (h : WritesTerms ts text) :
    readAlternative source (before ++ text ++ after) = readTerms source ts := by
  rw [readAlternative, h.clauseTexts_eq hbefore hafter, readTerms]
  cases ts.mapM fun t => Term.clauses t.plain <;> rfl

/-- The alternatives of a range are those of its terms without blanks. -/
theorem alternativesOf_of_writes {alternatives : List (List SpacedTerm)} {text : List Char}
    (h : WritesRange alternatives text) (source : String) :
    alternativesOf source (alternativeTexts text) = alternatives.mapM (readTerms source) := by
  have hbar : ∀ {ts : List SpacedTerm} {before text after : List Char},
      (∀ c ∈ before, Text.isBlank c = true) → (∀ c ∈ after, Text.isBlank c = true) →
      WritesTerms ts text → ∀ c ∈ before ++ text ++ after, c ≠ '|' := by
    intro ts before text after hbefore hafter h
    simp only [List.forall_mem_append]
    exact ⟨⟨fun c hc => ne_bar_of_isBlank (hbefore c hc), h.ne_bar_of_mem⟩,
      fun c hc => ne_bar_of_isBlank (hafter c hc)⟩
  rw [alternativesOf_eq_mapM]
  induction h with
  | last hbefore hafter h =>
    rw [alternativeTexts_eq_singleton (hbar hbefore hafter h), List.mapM_cons, List.mapM_cons,
      readAlternative_eq hbefore hafter h]
    rfl
  | cons hbefore hafter h hmore ih =>
    rw [alternativeTexts_append (hbar hbefore hafter h), List.mapM_cons, List.mapM_cons,
      readAlternative_eq hbefore hafter h, ih]

end VersionRange

end ProfileCompiler
