import Mathlib.Data.List.TakeWhile
import ProfileCompiler.Proofs.Text.Numeral
import ProfileCompiler.Proofs.Version.Order
import ProfileCompiler.Version.Range

/-!
# Reading releases

A release alone is written as decimal numerals with points between them (`Dotted`).  Such a text
is read as the version of these numbers, in a clause and alone, and with `.*` behind it as the
versions whose release starts with them.  Numerals of more digits than can be read make no
clause that could be used.
-/

namespace ProfileCompiler

/-- A release as it is written: one or more decimal numerals.  Zeros may stand in front. -/
structure Dotted where
  numerals : List (List Char)
  nonempty : numerals ≠ []
  isNumeral : ∀ cs ∈ numerals, Text.IsNumeral cs

namespace Dotted

/-- The numerals with points between them. -/
def text (a : Dotted) : List Char := Term.dotted a.numerals

/-- The numbers of the release. -/
def numbers (a : Dotted) : List Nat := a.numerals.map Text.value

/-- The version of the release alone. -/
def version (a : Dotted) : Version := .ofRelease a.numbers

/-- No numeral has more digits than can be read. -/
def Readable (a : Dotted) : Prop := ∀ cs ∈ a.numerals, cs.length ≤ Text.digitLimit

instance (a : Dotted) : Decidable a.Readable :=
  decidable_of_iff ((a.numerals.all fun cs => cs.length ≤ Text.digitLimit) = true)
    (by simp [Readable])

/-- Numbers as they are written, without zeros in front. -/
def ofNumbers (ns : List Nat) (h : ns ≠ []) : Dotted where
  numerals := ns.map (Nat.toDigits 10)
  nonempty := by simpa using h
  isNumeral := by
    intro cs hcs
    obtain ⟨n, -, rfl⟩ := List.mem_map.1 hcs
    exact Text.isNumeral_toDigits n

@[simp] lemma numbers_ofNumbers (ns : List Nat) (h : ns ≠ []) : (ofNumbers ns h).numbers = ns := by
  simp [numbers, ofNumbers, Function.comp_def]

variable (a : Dotted)

@[simp] lemma length_numbers : a.numbers.length = a.numerals.length := List.length_map _

lemma length_numbers_pos : 0 < a.numbers.length := by
  rw [length_numbers]
  exact List.length_pos_iff.2 a.nonempty

/-! ## The text -/

lemma dotted_cons (cs : List Char) (more : List (List Char)) :
    Term.dotted (cs :: more) = cs ++ more.flatMap ('.' :: ·) := by
  induction more generalizing cs with
  | nil => simp [Term.dotted]
  | cons ds more ih =>
    rw [Term.dotted, ih, List.flatMap_cons, List.cons_append]
    exact List.cons_ne_nil ds more

/-- A text starts with its first numeral, and with a point before each of the others. -/
lemma exists_text_eq : ∃ d ds more, a.numerals = (d :: ds) :: more ∧
    a.text = d :: (ds ++ more.flatMap ('.' :: ·)) := by
  obtain ⟨cs, more, hcs⟩ := List.exists_cons_of_ne_nil a.nonempty
  have hnumeral := a.isNumeral cs (hcs ▸ List.mem_cons_self)
  obtain ⟨d, ds, rfl⟩ := List.exists_cons_of_ne_nil hnumeral.1
  exact ⟨d, ds, more, hcs, by rw [text, hcs, dotted_cons, List.cons_append]⟩

lemma isDigit_of_text_eq {d : Char} {rest : List Char} (h : a.text = d :: rest) :
    d.isDigit = true := by
  obtain ⟨e, ds, more, hnumerals, htext⟩ := a.exists_text_eq
  obtain rfl : e = d := (List.cons.inj (htext.symm.trans h)).1
  exact (a.isNumeral _ (hnumerals ▸ List.mem_cons_self)).2 e List.mem_cons_self

lemma isDigit_or_eq_of_mem {c : Char} (h : c ∈ a.text) : c.isDigit = true ∨ c = '.' := by
  obtain ⟨cs, more, hcs⟩ := List.exists_cons_of_ne_nil a.nonempty
  have hnumeral := a.isNumeral
  rw [hcs, List.forall_mem_cons] at hnumeral
  rw [text, hcs, dotted_cons, List.mem_append, List.mem_flatMap] at h
  rcases h with h | ⟨ds, hds, h⟩
  · exact .inl (hnumeral.1.2 c h)
  · rcases List.mem_cons.1 h with rfl | h
    · exact .inr rfl
    · exact .inl ((hnumeral.2 ds hds).2 c h)

/-- What is neither a digit nor a point does not occur. -/
lemma ne_of_mem {c d : Char} (h : c ∈ a.text) (hd : d.isDigit = false) (hpoint : d ≠ '.') :
    c ≠ d := by
  rcases a.isDigit_or_eq_of_mem h with hc | rfl
  · exact Text.ne_of_isDigit hc hd
  · exact hpoint.symm

lemma isBlank_of_mem {c : Char} (h : c ∈ a.text) : Text.isBlank c = false := by
  rcases a.isDigit_or_eq_of_mem h with hc | rfl
  · exact Text.isBlank_of_isDigit hc
  · rfl

lemma lower_text : Text.lower a.text = a.text := by
  refine (List.map_congr_left fun c hc => ?_).trans (List.map_id a.text)
  rcases a.isDigit_or_eq_of_mem hc with hdigit | rfl
  · exact Text.toLower_of_isDigit hdigit
  · rfl

/-- Cut at what is neither a digit, the text falls into its numerals. -/
lemma pieces_text {separates : Char → Bool} (hpoint : separates '.' = true)
    (hdigit : ∀ c : Char, c.isDigit = true → separates c = false) :
    Text.pieces separates a.text = a.numerals := by
  obtain ⟨cs, more, hcs⟩ := List.exists_cons_of_ne_nil a.nonempty
  have hnumeral := a.isNumeral
  rw [text, hcs, dotted_cons]
  rw [hcs] at hnumeral
  clear hcs
  induction more generalizing cs with
  | nil =>
    rw [List.forall_mem_singleton] at hnumeral
    rw [List.flatMap_nil, List.append_nil]
    exact Text.pieces_eq_singleton fun c hc => hdigit c (hnumeral.2 c hc)
  | cons ds more ih =>
    obtain ⟨hfirst, hmore⟩ := List.forall_mem_cons.1 hnumeral
    rw [List.flatMap_cons, List.cons_append, Text.pieces_append_cons hpoint, ih ds hmore,
      Text.pieces_eq_singleton fun c hc => hdigit c (hfirst.2 c hc)]
    rfl

end Dotted

namespace Version

/-! ## Numbers -/

lemma number_append {ds rest : List Char} (h : ∀ c ∈ ds, c.isDigit = true)
    (hrest : ∀ c ∈ rest.head?, c.isDigit = false) (n : Nat) :
    number n (ds ++ rest) = (Nat.ofDigitChars 10 ds n, rest) := by
  induction ds generalizing n with
  | nil =>
    cases rest with
    | nil => rfl
    | cons c rest => simp [number, hrest c rfl, Nat.ofDigitChars_nil]
  | cons d ds ih =>
    obtain ⟨hd, hds⟩ := List.forall_mem_cons.1 h
    rw [List.cons_append, number, if_pos hd, ih hds, Nat.ofDigitChars_cons]
    rfl

/-- A release in which the digits of the current number are read. -/
lemma releaseFrom_append {ds : List Char} (h : ∀ c ∈ ds, c.isDigit = true) (rest : List Char)
    (n : Nat) : releaseFrom n (ds ++ rest) = releaseFrom (Nat.ofDigitChars 10 ds n) rest := by
  induction ds generalizing n with
  | nil => rfl
  | cons d ds ih =>
    obtain ⟨hd, hds⟩ := List.forall_mem_cons.1 h
    have hpoint : d ≠ '.' := Text.ne_of_isDigit hd rfl
    rw [List.cons_append, releaseFrom, if_pos hd, ih hds, Nat.ofDigitChars_cons]
    · rfl
    · intro e more heq
      exact absurd heq hpoint

/-- A release of several numerals, of which the first is read. -/
lemma releaseFrom_flatMap {more : List (List Char)} (h : ∀ cs ∈ more, Text.IsNumeral cs)
    {rest : List Char} (hrest : ∀ n, releaseFrom n rest = ([n], rest)) (n : Nat) :
    releaseFrom n (more.flatMap ('.' :: ·) ++ rest) = (n :: more.map Text.value, rest) := by
  induction more generalizing n with
  | nil => exact hrest n
  | cons cs more ih =>
    obtain ⟨hcs, hmore⟩ := List.forall_mem_cons.1 h
    obtain ⟨d, ds, rfl⟩ := List.exists_cons_of_ne_nil hcs.1
    obtain ⟨hd, hds⟩ := List.forall_mem_cons.1 hcs.2
    rw [List.flatMap_cons, List.cons_append, List.cons_append, List.append_assoc,
      List.cons_append, releaseFrom, if_pos hd, releaseFrom_append hds, ih hmore]
    simp [Text.value, Nat.ofDigitChars_cons, digit]

/-! ## Versions -/

/-- What may stand behind a release: nothing, or a wildcard. -/
def EndsRelease (rest : List Char) : Prop := rest = [] ∨ rest = ['.', '*']

lemma releaseFrom_of_endsRelease {rest : List Char} (h : EndsRelease rest) (n : Nat) :
    releaseFrom n rest = ([n], rest) := by
  rcases h with rfl | rfl <;> rfl

/-- Digits that are no epoch start a release. -/
lemma readBase?_cons {d : Char} (hd : d.isDigit = true) {rest : List Char}
    (hepoch : ∀ epoch e after, number (digit d) rest ≠ (epoch, '!' :: e :: after)) :
    readBase? (d :: rest) = some (0, releaseFrom (digit d) rest) := by
  have hv : d ≠ 'v' := Text.ne_of_isDigit hd rfl
  rw [readBase?]
  · rw [if_pos hd]
    split
    · rename_i epoch e after h
      exact absurd h (hepoch _ _ _)
    · rfl
  · intro t h
    exact hv (List.cons.inj h).1

/-- What follows the first numeral is nothing or starts with a point. -/
lemma head?_flatMap_append (more : List (List Char)) {rest : List Char} (h : EndsRelease rest) :
    ∀ c ∈ (more.flatMap ('.' :: ·) ++ rest).head?, c = '.' := by
  intro c hc
  cases more with
  | nil =>
    rcases h with rfl | rfl
    · cases hc
    · exact (Option.some.inj hc).symm
  | cons ds more => exact (Option.some.inj hc).symm

lemma readBase?_text (a : Dotted) {rest : List Char} (hrest : EndsRelease rest) :
    readBase? (a.text ++ rest) = some (0, a.numbers, rest) := by
  obtain ⟨d, ds, more, hnumerals, htext⟩ := a.exists_text_eq
  have hnumeral := a.isNumeral
  rw [hnumerals, List.forall_mem_cons] at hnumeral
  obtain ⟨⟨-, hfirst⟩, hmore⟩ := hnumeral
  obtain ⟨hd, hds⟩ := List.forall_mem_cons.1 hfirst
  have hhead := head?_flatMap_append more hrest
  rw [htext, List.cons_append, List.append_assoc, readBase?_cons hd, releaseFrom_append hds,
    releaseFrom_flatMap hmore (releaseFrom_of_endsRelease hrest), Dotted.numbers, hnumerals]
  · simp [Text.value, Nat.ofDigitChars_cons, digit]
  · -- After the first number stands a point or nothing, so it is no epoch.
    intro epoch e after h
    rw [number_append hds fun c hc => by rw [hhead c hc]; rfl] at h
    rw [(Prod.mk.inj h).2] at hhead
    exact absurd (hhead '!' rfl) (by decide)

/-- A release is read as the version of its numbers. -/
theorem read?_text (a : Dotted) : read? a.text = some a.version := by
  have hbase := readBase?_text a (.inl rfl)
  rw [List.append_nil] at hbase
  rw [read?, Dotted.lower_text, hbase]
  rfl

lemma not_mem_of_endsRelease {rest : List Char} (h : EndsRelease rest) {c : Char}
    (hc : c ≠ '.') (hstar : c ≠ '*') : c ∉ rest := by
  rcases h with rfl | rfl <;> simp [hc, hstar]

/-- A release has a number that cannot be read if one of its numerals has too many digits. -/
lemma hasOverlongNumber_text (a : Dotted) {rest : List Char} (hrest : EndsRelease rest) :
    hasOverlongNumber (a.text ++ rest) = decide ¬ a.Readable := by
  -- Without a plus there is no local label, so the numbers are those of the release.
  have hplus : ∀ c ∈ a.text ++ rest, (c != '+') = true := by
    intro c hc
    rcases List.mem_append.1 hc with hc | hc
    · simpa using a.ne_of_mem hc rfl (by decide)
    · have hne : c ≠ '+' := by
        rintro rfl
        exact not_mem_of_endsRelease hrest (by decide) (by decide) hc
      simpa using hne
  have hpieces : (Text.pieces (fun c => !c.isDigit) (a.text ++ rest)).any Text.isOverlong =
      a.numerals.any Text.isOverlong := by
    have htext : Text.pieces (fun c => !c.isDigit) a.text = a.numerals :=
      a.pieces_text rfl fun c hc => by rw [hc]; rfl
    rcases hrest with rfl | rfl
    · rw [List.append_nil, htext]
    · rw [Text.pieces_append_cons rfl, htext, List.any_append]
      exact Bool.or_false _
  have hmain : (a.text ++ rest).takeWhile (· != '+') = a.text ++ rest :=
    List.takeWhile_eq_self_iff.2 hplus
  have hlabel : (a.text ++ rest).drop ((a.text ++ rest).length + 1) = [] :=
    List.drop_eq_nil_of_le (Nat.le_succ _)
  have hoverlong : a.numerals.any Text.isOverlong = decide ¬ a.Readable := by
    rw [Bool.eq_iff_iff, List.any_eq_true, decide_eq_true_eq]
    simp only [Dotted.Readable, not_forall, Nat.not_le, exists_prop]
    refine exists_congr fun cs => and_congr_right fun hcs => ?_
    rw [Text.isOverlong_of_digits (a.isNumeral cs hcs).2, decide_eq_true_eq]
  rw [hasOverlongNumber]
  simp only [hmain, hpieces, hlabel, hoverlong]
  exact Bool.or_false _

end Version

namespace Clause

variable {sign body : List Char} {op : Operator}

/-- A clause of an operator that has its meaning from the version behind it. -/
lemma read?_append (hblank : ∀ c ∈ sign ++ body, Text.isBlank c = false)
    (hword : Version.word? operators (sign ++ body) = some (op, body))
    (hcompatible : op ≠ .compatible) (hidentical : op ≠ .identical) :
    read? (sign ++ body) = (ofOperator? op body).map fun clause =>
      if Version.hasOverlongNumber body then .error .overlongNumber else .ok clause := by
  have hbody : Text.strip body = body :=
    Text.strip_eq_self_of_forall fun c hc => hblank c (List.mem_append_right _ hc)
  have husable : isUnusable op body = false := by simp [isUnusable, hcompatible]
  rw [read?, Text.strip_eq_self_of_forall hblank, hword]
  simp only [Option.bind_eq_bind, Option.bind_some, hbody, husable, Bool.false_eq_true, if_false]
  cases ofOperator? op body with
  | none => rfl
  | some clause =>
    simp only [Option.bind_some, Option.map_some, bne_iff_ne.2 hidentical, Bool.true_and]
    split <;> rfl

/-- What a clause of a readable release is read as. -/
lemma read?_text {a : Dotted} (ha : a.Readable) {clause : Clause}
    (hsign : sign.all (fun c => !Text.isBlank c) = true)
    (hword : Version.word? operators (sign ++ a.text) = some (op, a.text))
    (hop : ofOperator? op a.text = some clause) (hcompatible : op ≠ .compatible)
    (hidentical : op ≠ .identical) : read? (sign ++ a.text) = some (.ok clause) := by
  have hblank : ∀ c ∈ sign ++ a.text, Text.isBlank c = false :=
    List.forall_mem_append.2 ⟨by simpa using hsign, fun c hc => a.isBlank_of_mem hc⟩
  have hlong := Version.hasOverlongNumber_text a (.inl rfl)
  rw [List.append_nil] at hlong
  rw [read?_append hblank hword hcompatible hidentical, hop, hlong]
  simp [ha]

lemma readPublic?_text (a : Dotted) : readPublic? a.text = some a.version := by
  rw [readPublic?, Version.read?_text]
  rfl

/-! ## The clauses of a release -/

lemma head?_text_ne (a : Dotted) : ∀ c ∈ a.text.head?, c ≠ '=' := by
  intro c hc
  exact a.ne_of_mem (List.mem_of_mem_head? hc) rfl (by decide)

lemma word?_below (h : ∀ c ∈ body.head?, c ≠ '=') :
    Version.word? operators (['<'] ++ body) = some (.below, body) := by
  cases body with
  | nil => rfl
  | cons c body =>
    have hc : '=' ≠ c := (h c rfl).symm
    simp [operators, Version.word?, hc]

lemma word?_equal (h : ∀ c ∈ body.head?, c ≠ '=') :
    Version.word? operators (['=', '='] ++ body) = some (.equal, body) := by
  cases body with
  | nil => rfl
  | cons c body =>
    have hc : '=' ≠ c := (h c rfl).symm
    simp [operators, Version.word?, hc]

lemma read?_atLeast {a : Dotted} (ha : a.Readable) :
    read? (['>', '='] ++ a.text) = some (.ok (.atLeast a.version)) := by
  have hword : Version.word? operators (['>', '='] ++ a.text) = some (.atLeast, a.text) := rfl
  exact read?_text ha (by decide) hword (by rw [ofOperator?, readPublic?_text]; rfl)
    (by decide) (by decide)

lemma read?_atMost {a : Dotted} (ha : a.Readable) :
    read? (['<', '='] ++ a.text) = some (.ok (.atMost a.version)) := by
  have hword : Version.word? operators (['<', '='] ++ a.text) = some (.atMost, a.text) := rfl
  exact read?_text ha (by decide) hword (by rw [ofOperator?, readPublic?_text]; rfl)
    (by decide) (by decide)

lemma read?_below {a : Dotted} (ha : a.Readable) :
    read? (['<'] ++ a.text) = some (.ok (.below a.version)) :=
  read?_text ha (by decide) (word?_below (head?_text_ne a))
    (by rw [ofOperator?, readPublic?_text]; rfl) (by decide) (by decide)

lemma read?_exactly {a : Dotted} (ha : a.Readable) :
    read? (['=', '='] ++ a.text) = some (.ok (.exactly a.version)) := by
  have hbase := Version.readBase?_text a (.inl rfl)
  rw [List.append_nil] at hbase
  have hwildcard : readWildcard? a.text = none := by
    rw [readWildcard?, Dotted.lower_text, hbase]
  refine read?_text ha (by decide) (word?_equal (head?_text_ne a)) ?_ (by decide) (by decide)
  rw [ofOperator?, readEquality?, hwildcard, Version.read?_text]
  rfl

lemma read?_within {a : Dotted} (ha : a.Readable) :
    read? (['=', '='] ++ (a.text ++ ['.', '*'])) = some (.ok (.within 0 a.numbers)) := by
  have hhead : ∀ c ∈ (a.text ++ ['.', '*']).head?, c ≠ '=' := by
    obtain ⟨d, ds, more, -, htext⟩ := a.exists_text_eq
    have hd := head?_text_ne a
    rw [htext] at hd ⊢
    exact hd
  have hlower : Text.lower (a.text ++ ['.', '*']) = a.text ++ ['.', '*'] := by
    rw [Text.lower, List.map_append, ← Text.lower, Dotted.lower_text]
    rfl
  have hwildcard : readWildcard? (a.text ++ ['.', '*']) = some (0, a.numbers) := by
    rw [readWildcard?, hlower, Version.readBase?_text a (.inr rfl)]
    rfl
  have hblank : ∀ c ∈ ['=', '='] ++ (a.text ++ ['.', '*']), Text.isBlank c = false := by
    simp only [List.forall_mem_append]
    exact ⟨by simp [Text.isBlank], fun c hc => a.isBlank_of_mem hc, by simp [Text.isBlank]⟩
  rw [read?_append hblank (word?_equal hhead) (by decide) (by decide), ofOperator?, readEquality?,
    hwildcard, Version.hasOverlongNumber_text a (.inr rfl)]
  simp [ha]

end Clause

end ProfileCompiler
