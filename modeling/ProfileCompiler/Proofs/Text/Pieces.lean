import Mathlib.Data.List.Induction
import Mathlib.Tactic.Common
import ProfileCompiler.Text.Pieces

/-!
# Cutting texts

The pieces of a text are those of `List.splitOnP`, so a separating character cuts the pieces, and
a blank the words, into those before it and those after it (`pieces_append_cons`,
`words_append_cons`).  Blanks around a text that has none at its ends are what `strip` takes away
(`strip_append`).
-/

namespace ProfileCompiler

namespace Text

variable {separates : Char → Bool} {c : Char} {cs xs ys : List Char}

/-- A text that starts with another one is that one followed by the rest. -/
lemma after?_eq_some_iff {start s rest : String} :
    after? start s = some rest ↔ s = start ++ rest := by
  simp only [after?, List.isPrefixOf_iff_prefix, Option.ite_none_right_eq_some, Option.some.injEq]
  constructor
  · rintro ⟨⟨tail, htail⟩, rfl⟩
    refine String.toList_inj.1 ?_
    rw [String.toList_append, String.toList_ofList, ← htail, List.drop_left]
  · rintro rfl
    rw [String.toList_append, List.drop_left, String.ofList_toList]
    exact ⟨List.prefix_append _ _, rfl⟩

lemma pieces_eq_splitOnP (separates : Char → Bool) (cs : List Char) :
    pieces separates cs = cs.splitOnP separates := by
  induction cs with
  | nil => rfl
  | cons c cs ih =>
    rw [pieces, List.splitOnP_cons_eq_if_modifyHead, ih]
    split
    · rfl
    · cases h : cs.splitOnP separates with
      | nil => exact absurd h (List.splitOnP_ne_nil separates cs)
      | cons piece more => rfl

lemma pieces_append_cons (hc : separates c = true) (xs ys : List Char) :
    pieces separates (xs ++ c :: ys) = pieces separates xs ++ pieces separates ys := by
  simp only [pieces_eq_splitOnP]
  exact List.splitOnP_append_cons xs ys hc

/-- A text without a separating character is in one piece. -/
lemma pieces_eq_singleton (h : ∀ c ∈ cs, separates c = false) : pieces separates cs = [cs] := by
  rw [pieces_eq_splitOnP]
  exact List.splitOnP_eq_singleton fun c hc => by simp [h c hc]

/-! ## Words -/

lemma words_append_cons (hc : isBlank c = true) (xs ys : List Char) :
    words (xs ++ c :: ys) = words xs ++ words ys := by
  rw [words, pieces_append_cons hc, List.filter_append]
  rfl

/-- A text without blanks is a word, unless it is empty. -/
lemma words_eq_singleton (hne : cs ≠ []) (h : ∀ c ∈ cs, isBlank c = false) : words cs = [cs] := by
  rw [words, pieces_eq_singleton h]
  cases cs with
  | nil => exact absurd rfl hne
  | cons c cs => rfl

lemma words_blanks (h : ∀ c ∈ xs, isBlank c = true) : words xs = [] := by
  induction xs with
  | nil => rfl
  | cons c xs ih =>
    obtain ⟨hc, hxs⟩ := List.forall_mem_cons.1 h
    rw [← List.nil_append (c :: xs), words_append_cons hc, ih hxs]
    rfl

/-- Blanks between two texts part their words. -/
lemma words_append_blanks_append {gap : List Char} (hne : gap ≠ [])
    (h : ∀ c ∈ gap, isBlank c = true) (xs ys : List Char) :
    words (xs ++ gap ++ ys) = words xs ++ words ys := by
  obtain ⟨c, gap, rfl⟩ := List.exists_cons_of_ne_nil hne
  obtain ⟨hc, hgap⟩ := List.forall_mem_cons.1 h
  rw [List.append_assoc, List.cons_append, words_append_cons hc]
  congr 1
  cases gap using List.reverseRecOn with
  | nil => rfl
  | append_singleton gap d =>
    rw [List.forall_mem_append, List.forall_mem_singleton] at hgap
    rw [List.append_assoc, List.singleton_append, words_append_cons hgap.2, words_blanks hgap.1,
      List.nil_append]

/-! ## Blanks at the ends -/

lemma dropWhile_isBlank_append (hb : ∀ c ∈ xs, isBlank c = true) (hne : cs ≠ [])
    (hhead : ∀ c ∈ cs.head?, isBlank c = false) (ys : List Char) :
    (xs ++ cs ++ ys).dropWhile isBlank = cs ++ ys := by
  obtain ⟨c, cs, rfl⟩ := List.exists_cons_of_ne_nil hne
  have hc : isBlank c = false := hhead c rfl
  rw [List.append_assoc, List.dropWhile_append_of_pos hb, List.cons_append,
    List.dropWhile_cons_of_neg (by simp [hc])]

/-- Blanks around a text are taken away, up to the first and the last character that is none. -/
lemma strip_append {before after : List Char} (hbefore : ∀ c ∈ before, isBlank c = true)
    (hafter : ∀ c ∈ after, isBlank c = true) (hne : cs ≠ [])
    (hhead : ∀ c ∈ cs.head?, isBlank c = false) (hlast : ∀ c ∈ cs.getLast?, isBlank c = false) :
    strip (before ++ cs ++ after) = cs := by
  have hend : (cs ++ after).reverse.dropWhile isBlank = cs.reverse := by
    have h : (after.reverse ++ cs.reverse ++ []).dropWhile isBlank = cs.reverse ++ [] :=
      dropWhile_isBlank_append (by simpa using hafter) (by simpa using hne)
        (by simpa using hlast) []
    simpa using h
  rw [strip, dropWhile_isBlank_append hbefore hne hhead, hend, List.reverse_reverse]

/-- A text without blanks at its ends is left as it is. -/
lemma strip_eq_self (hne : cs ≠ []) (hhead : ∀ c ∈ cs.head?, isBlank c = false)
    (hlast : ∀ c ∈ cs.getLast?, isBlank c = false) : strip cs = cs := by
  have h : strip ([] ++ cs ++ []) = cs :=
    strip_append (List.forall_mem_nil _) (List.forall_mem_nil _) hne hhead hlast
  simpa using h

/-- A text without blanks is left as it is. -/
lemma strip_eq_self_of_forall (h : ∀ c ∈ cs, isBlank c = false) : strip cs = cs := by
  by_cases hne : cs = []
  · subst hne
    rfl
  · exact strip_eq_self hne (fun c hc => h c (List.mem_of_mem_head? hc)) fun c hc =>
      h c (List.mem_of_getLast? hc)

end Text

end ProfileCompiler
