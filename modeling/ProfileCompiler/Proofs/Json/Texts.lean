import Mathlib.Data.List.Basic
import ProfileCompiler.Json.Reader
import ProfileCompiler.Json.Writer

/-!
# Lists of texts in JSON

A list of texts can always be written (`Json.write?_texts`).  What is written for it, `Json.row`, is
read back as this list, whatever characters the texts have (`Json.read_row`), and is ASCII
(`Json.isAscii_row`).

A character is written in one of four ways (`Json.WrittenAs`): as a letter behind a backslash, as
itself, as one UTF-16 unit, or as two surrogate units.  The reader gets the character back from
each of them, whatever follows.  This needs that no character is a surrogate: after a unit the
reader looks for a second one, and would join a high surrogate to it.
-/

namespace ProfileCompiler

/-! ## Numbers of four digits -/

namespace Text

/-- All digits of a number but the last one are those of its sixteenth part. -/
lemma hex_succ_succ (width n : Nat) :
    hex (width + 2) n = hex (width + 1) (n / 16) ++ [Nat.digitChar (n % 16)] := by
  unfold hex
  by_cases hn : n < 16
  · have hzero : Nat.toDigits 16 0 = ['0'] := rfl
    rw [Nat.div_eq_of_lt hn, Nat.mod_eq_of_lt hn, Nat.toDigits_of_lt_base hn, hzero]
    simp [List.replicate_succ']
  · rw [Nat.toDigits_of_base_le (by omega) (by omega : 16 ≤ n)]
    simp

lemma hex_one {d : Nat} (h : d < 16) : hex 1 d = [Nat.digitChar d] := by
  rw [hex, Nat.toDigits_of_lt_base h]
  rfl

lemma hex_four {n : Nat} (h : n < 0x10000) :
    hex 4 n = [Nat.digitChar (n / 16 / 16 / 16), Nat.digitChar (n / 16 / 16 % 16),
      Nat.digitChar (n / 16 % 16), Nat.digitChar (n % 16)] := by
  rw [hex_succ_succ, hex_succ_succ, hex_succ_succ, hex_one (by omega)]
  rfl

lemma hexValue?_digitChar {d : Nat} (h : d < 16) : hexValue? (Nat.digitChar d) = some d := by
  revert d
  decide

end Text

/-- Texts as values. -/
def Value.texts (ps : List String) : List Value := ps.map Value.text

lemma Value.texts_injective : Function.Injective Value.texts :=
  List.map_injective_iff.2 fun _ _ h => Scalar.text.inj (Value.scalar.inj h)

namespace Json

open Value (texts)

variable {c : Char} {cs : List Char} {fuel n : Nat}

/-! ## UTF-16 units -/

lemma unit?_hex (h : n < 0x10000) (rest : List Char) :
    unit? (Text.hex 4 n ++ rest) = some (n, rest) := by
  have hfirst : n / 16 / 16 / 16 < 16 := by omega
  have hother : ∀ m : Nat, m % 16 < 16 := fun m => Nat.mod_lt m (by omega)
  have hvalue : ((n / 16 / 16 / 16 * 16 + n / 16 / 16 % 16) * 16 + n / 16 % 16) * 16 + n % 16 =
      n := by omega
  rw [Text.hex_four h]
  simp [unit?, Text.hexValue?_digitChar hfirst, Text.hexValue?_digitChar (hother _), hvalue]

/-- Surrogates are no characters. -/
lemma toNat_lt_or (c : Char) : c.toNat < 0xD800 ∨ 0xE000 ≤ c.toNat ∧ c.toNat < 0x110000 := c.valid

/-- The unit of a character is read as the character, also where another unit follows. -/
lemma numberEscape?_of_unit (h : c.toNat < 0x10000) (rest : List Char) :
    numberEscape? (Text.hex 4 c.toNat ++ rest) = some (c, rest) := by
  have hpair : ∀ low : Nat,
      ¬ (0xD800 ≤ c.toNat ∧ c.toNat < 0xDC00 ∧ 0xDC00 ≤ low ∧ low < 0xE000) := by
    have hsurrogate := toNat_lt_or c
    omega
  unfold numberEscape?
  rw [unit?_hex h]
  simp only [Option.bind_eq_bind, Option.bind_some, Char.ofNat_toNat]
  split
  · split
    · rw [if_neg (hpair _)]
    · rfl
  · rfl

lemma numberEscape?_of_surrogates {high low : Nat} (hhigh : 0xD800 ≤ high ∧ high < 0xDC00)
    (hlow : 0xDC00 ≤ low ∧ low < 0xE000)
    (hnumber : c.toNat = 0x10000 + (high - 0xD800) * 0x400 + (low - 0xDC00)) (rest : List Char) :
    numberEscape? (Text.hex 4 high ++ (unitEscape low ++ rest)) = some (c, rest) := by
  have hunit : unit? (Text.hex 4 low ++ rest) = some (low, rest) := unit?_hex (by omega) rest
  unfold numberEscape? unitEscape
  rw [unit?_hex (by omega)]
  simp only [Option.bind_eq_bind, Option.bind_some, List.cons_append, hunit]
  rw [if_pos ⟨hhigh.1, hhigh.2, hlow⟩, ← hnumber, Char.ofNat_toNat]

/-! ## Characters -/

/-- The ways in which a character is written. -/
inductive WrittenAs (c : Char) : List Char → Prop
  | letter {e : Char} : letterEscape? e = some c → e.toNat < 0x80 → WrittenAs c ['\\', e]
  | plain : c ≠ '"' → c ≠ '\\' → 0x20 ≤ c.toNat → c.toNat < 0x80 → WrittenAs c [c]
  | unit : c.toNat < 0x10000 → WrittenAs c (unitEscape c.toNat)
  | pair {high low : Nat} : 0xD800 ≤ high ∧ high < 0xDC00 → 0xDC00 ≤ low ∧ low < 0xE000 →
    c.toNat = 0x10000 + (high - 0xD800) * 0x400 + (low - 0xDC00) →
    WrittenAs c (unitEscape high ++ unitEscape low)

lemma writtenAs_escapeChar (c : Char) : WrittenAs c (escapeChar c) := by
  unfold escapeChar
  split_ifs with hquote hslash hnewline hreturn htab hfeed hback hplain hunit
  · exact .letter (by rw [beq_iff_eq.1 hquote]; rfl) (by decide)
  · exact .letter (by rw [beq_iff_eq.1 hslash]; rfl) (by decide)
  · exact .letter (by rw [beq_iff_eq.1 hnewline]; rfl) (by decide)
  · exact .letter (by rw [beq_iff_eq.1 hreturn]; rfl) (by decide)
  · exact .letter (by rw [beq_iff_eq.1 htab]; rfl) (by decide)
  · exact .letter (by rw [beq_iff_eq.1 hfeed]; rfl) (by decide)
  · exact .letter (by rw [beq_iff_eq.1 hback]; rfl) (by decide)
  · rw [Bool.and_eq_true, decide_eq_true_eq, decide_eq_true_eq] at hplain
    refine .plain (fun h => ?_) (fun h => ?_) hplain.1 (by omega)
    · exact hquote (beq_iff_eq.2 h)
    · exact hslash (beq_iff_eq.2 h)
  · exact .unit hunit
  · have hbound := toNat_lt_or c
    exact .pair (by omega) (by omega) (by omega)

lemma WrittenAs.length_pos (h : WrittenAs c cs) : 0 < cs.length := by
  cases h <;> simp [unitEscape]

/-- A written character is read back, whatever follows it. -/
lemma stringRest?_of_writtenAs (h : WrittenAs c cs) (fuel : Nat) (done rest : List Char) :
    stringRest? (fuel + 1) done (cs ++ rest) = stringRest? fuel (c :: done) rest := by
  cases h with
  | @letter e hletter _ =>
    have hnot : e ≠ 'u' := by
      rintro rfl
      cases hletter
    rw [List.cons_append, List.singleton_append, stringRest?, hletter]
    exact hnot
  | plain hquote hslash hlow _ =>
    rw [List.singleton_append, stringRest?, if_neg (by omega)]
    · intro heq
      exact hquote heq
    · intro _ heq
      exact absurd heq hslash
    · intro _ _ heq
      exact absurd heq hslash
  | unit hunit =>
    rw [unitEscape, List.cons_append, List.cons_append, stringRest?, numberEscape?_of_unit hunit]
  | @pair high _ hhigh hlow hnumber =>
    rw [List.append_assoc, unitEscape.eq_1 high, List.cons_append, List.cons_append, stringRest?,
      numberEscape?_of_surrogates hhigh hlow hnumber]

/-! ## Texts -/

lemma quote_eq (cs : List Char) : quote cs = '"' :: (cs.flatMap escapeChar ++ ['"']) := rfl

lemma length_le_flatMap_escapeChar (cs : List Char) :
    cs.length ≤ (cs.flatMap escapeChar).length := by
  induction cs with
  | nil => exact Nat.le_refl 0
  | cons c cs ih =>
    have hone : 0 < (escapeChar c).length := (writtenAs_escapeChar c).length_pos
    rw [List.flatMap_cons, List.length_append, List.length_cons]
    omega

lemma length_lt_length_quote (cs : List Char) : cs.length + 1 < (quote cs).length := by
  have hbody := length_le_flatMap_escapeChar cs
  rw [quote_eq, List.length_cons, List.length_append, List.length_singleton]
  omega

lemma stringRest?_flatMap (cs : List Char) (h : cs.length < fuel) (done rest : List Char) :
    stringRest? fuel done (cs.flatMap escapeChar ++ '"' :: rest) =
      some (String.ofList (done.reverse ++ cs), rest) := by
  induction cs generalizing fuel done with
  | nil =>
    obtain ⟨more, rfl⟩ : ∃ more, fuel = more + 1 := Nat.exists_eq_succ_of_ne_zero (by omega)
    rw [List.flatMap_nil, List.nil_append, stringRest?, List.append_nil]
  | cons c cs ih =>
    rw [List.length_cons] at h
    obtain ⟨more, rfl⟩ : ∃ more, fuel = more + 1 := Nat.exists_eq_succ_of_ne_zero (by omega)
    rw [List.flatMap_cons, List.append_assoc, stringRest?_of_writtenAs (writtenAs_escapeChar c),
      ih (by omega), List.reverse_cons, List.append_assoc, List.singleton_append]

/-- A quoted text is read back, whatever follows it. -/
lemma value_quote {s : String} (h : s.toList.length + 1 < fuel) (rest : List Char) :
    value fuel (quote s.toList ++ rest) = .ok (.text s, rest) := by
  obtain ⟨more, rfl⟩ : ∃ more, fuel = more + 1 := Nat.exists_eq_succ_of_ne_zero (by omega)
  have hread : stringRest? more [] (s.toList.flatMap escapeChar ++ '"' :: rest) =
      some (s, rest) := by
    rw [stringRest?_flatMap s.toList (by omega), List.reverse_nil, List.nil_append,
      String.ofList_toList]
  rw [quote_eq, List.cons_append, List.append_assoc, List.singleton_append, value, string, hread]
  rfl

/-! ## Lists -/

/-- The texts of a list in quotation marks. -/
def quotes (ps : List String) : List (List Char) := ps.map fun p => quote p.toList

/-- What is written for a list of texts. -/
def row (ps : List String) : List Char := '[' :: (commas (quotes ps) ++ [']'])

lemma quotes_cons (p : String) (ps : List String) :
    quotes (p :: ps) = quote p.toList :: quotes ps := rfl

lemma writeItems?_texts (ps : List String) : writeItems? (texts ps) = some (quotes ps) := by
  induction ps with
  | nil => rfl
  | cons p ps ih =>
    have hcons : texts (p :: ps) = .text p :: texts ps := rfl
    have hwrite : write? (.text p) = some (quote p.toList) := rfl
    rw [hcons, writeItems?, hwrite, ih]
    rfl

/-- A list of texts can be written. -/
theorem write?_texts (ps : List String) : write? (.list (texts ps)) = some (row ps) := by
  rw [write?, writeItems?_texts]
  rfl

lemma skip_cons (h : isBlank c = false) (cs : List Char) : skip (c :: cs) = c :: cs := by
  rw [skip, List.dropWhile_cons, h]
  rfl

/-- A row of quoted texts starts with a quotation mark. -/
lemma exists_commas_quotes_eq_cons (p : String) (ps : List String) :
    ∃ body, commas (quotes (p :: ps)) = '"' :: body := by
  rw [quotes_cons, quote_eq]
  cases quotes ps with
  | nil => exact ⟨_, rfl⟩
  | cons one more => exact ⟨_, rfl⟩

lemma skip_commas_quotes (p : String) (ps : List String) (rest : List Char) :
    skip (commas (quotes (p :: ps)) ++ rest) = commas (quotes (p :: ps)) ++ rest := by
  obtain ⟨body, hbody⟩ := exists_commas_quotes_eq_cons p ps
  rw [hbody, List.cons_append]
  exact skip_cons rfl _

/-- Written items are read back up to the closing bracket. -/
lemma items_quotes (p : String) (ps : List String)
    (h : (commas (quotes (p :: ps))).length < fuel) (rest : List Char) :
    items fuel (commas (quotes (p :: ps)) ++ ']' :: rest) = .ok (texts (p :: ps), rest) := by
  have hlength := length_lt_length_quote p.toList
  induction ps generalizing p fuel with
  | nil =>
    have hcommas : commas (quotes [p]) = quote p.toList := rfl
    rw [hcommas] at h ⊢
    obtain ⟨more, rfl⟩ : ∃ more, fuel = more + 1 := Nat.exists_eq_succ_of_ne_zero (by omega)
    rw [items, value_quote (by omega)]
    rfl
  | cons q qs ih =>
    have hcommas : commas (quotes (p :: q :: qs)) =
        quote p.toList ++ (',' :: ' ' :: commas (quotes (q :: qs))) := rfl
    rw [hcommas] at h ⊢
    rw [List.length_append, List.length_cons, List.length_cons] at h
    obtain ⟨more, rfl⟩ : ∃ more, fuel = more + 1 := Nat.exists_eq_succ_of_ne_zero (by omega)
    have hrest : items more (skip (' ' :: (commas (quotes (q :: qs)) ++ ']' :: rest))) =
        .ok (texts (q :: qs), rest) := by
      have hblank : ∀ cs, skip (' ' :: cs) = skip cs := fun _ => rfl
      rw [hblank, skip_commas_quotes]
      exact ih q (by omega) (length_lt_length_quote q.toList)
    rw [items, List.append_assoc, value_quote (by omega)]
    show (items more (skip (' ' :: (_ ++ ']' :: rest)))).map _ = _
    rw [hrest]
    rfl

/-- A list of texts is read back from what is written for it. -/
theorem read_row (ps : List String) : read (row ps) = .ok (.list (texts ps)) := by
  cases ps with
  | nil => rfl
  | cons p ps =>
    have hvalue : ∀ fuel, (commas (quotes (p :: ps))).length < fuel →
        value (fuel + 1) (row (p :: ps)) = .ok (.list (texts (p :: ps)), []) := by
      intro fuel hfuel
      obtain ⟨body, hbody⟩ := exists_commas_quotes_eq_cons p ps
      have hitems := items_quotes p ps hfuel []
      have hskip := skip_commas_quotes p ps [']']
      rw [hbody, List.cons_append] at hitems hskip
      rw [row, value, hbody, List.cons_append, hskip]
      show (items fuel ('"' :: (body ++ [']']))).map _ = _
      rw [hitems]
      rfl
    have hopen : skip (row (p :: ps)) = row (p :: ps) := skip_cons rfl _
    have hlength : (commas (quotes (p :: ps))).length < 2 * (row (p :: ps)).length + 1 := by
      rw [row, List.length_cons, List.length_append]
      omega
    rw [read, hopen, hvalue _ hlength]
    rfl

example : write? (.list (texts ["a\", \"b", "é", "😀", ""])) =
    some "[\"a\\\", \\\"b\", \"\\u00e9\", \"\\ud83d\\ude00\", \"\"]".toList := by
  decide +kernel

/-! ## ASCII -/

/-- All characters are those of ASCII. -/
def IsAscii (cs : List Char) : Prop := ∀ c ∈ cs, c.toNat < 0x80

lemma isAscii_cons : IsAscii (c :: cs) ↔ c.toNat < 0x80 ∧ IsAscii cs := List.forall_mem_cons

lemma isAscii_append {ds : List Char} : IsAscii (cs ++ ds) ↔ IsAscii cs ∧ IsAscii ds :=
  List.forall_mem_append

lemma isAscii_singleton : IsAscii [c] ↔ c.toNat < 0x80 := List.forall_mem_singleton

lemma toNat_digitChar_lt {d : Nat} (h : d < 16) : (Nat.digitChar d).toNat < 0x80 := by
  revert d
  decide

lemma isAscii_unitEscape (h : n < 0x10000) : IsAscii (unitEscape n) := by
  rw [unitEscape, Text.hex_four h]
  simp only [isAscii_cons]
  exact ⟨by decide, by decide, toNat_digitChar_lt (by omega), toNat_digitChar_lt (by omega),
    toNat_digitChar_lt (by omega), toNat_digitChar_lt (by omega), nofun⟩

lemma WrittenAs.isAscii (h : WrittenAs c cs) : IsAscii cs := by
  cases h with
  | letter _ hletter => exact isAscii_cons.2 ⟨by decide, isAscii_singleton.2 hletter⟩
  | plain _ _ _ hhigh => exact isAscii_singleton.2 hhigh
  | unit hunit => exact isAscii_unitEscape hunit
  | pair hhigh hlow _ =>
    exact isAscii_append.2 ⟨isAscii_unitEscape (by omega), isAscii_unitEscape (by omega)⟩

lemma isAscii_quote (cs : List Char) : IsAscii (quote cs) := by
  have hbody : IsAscii (cs.flatMap escapeChar) := by
    intro d hd
    obtain ⟨c, -, hc⟩ := List.mem_flatMap.1 hd
    exact (writtenAs_escapeChar c).isAscii d hc
  rw [quote_eq, isAscii_cons, isAscii_append, isAscii_singleton]
  exact ⟨by decide, hbody, by decide⟩

lemma isAscii_commas {parts : List (List Char)} (h : ∀ part ∈ parts, IsAscii part) :
    IsAscii (commas parts) := by
  induction parts with
  | nil => exact nofun
  | cons one more ih =>
    obtain ⟨hone, hmore⟩ := List.forall_mem_cons.1 h
    cases more with
    | nil => exact hone
    | cons two others =>
      have hcommas : commas (one :: two :: others) =
          one ++ (',' :: ' ' :: commas (two :: others)) := rfl
      rw [hcommas, isAscii_append, isAscii_cons, isAscii_cons]
      exact ⟨hone, by decide, by decide, ih hmore⟩

/-- What is written for a list of texts is ASCII. -/
theorem isAscii_row (ps : List String) : IsAscii (row ps) := by
  have hquotes : ∀ part ∈ quotes ps, IsAscii part := by
    intro part hpart
    obtain ⟨p, -, rfl⟩ := List.mem_map.1 hpart
    exact isAscii_quote p.toList
  rw [row, isAscii_cons, isAscii_append, isAscii_singleton]
  exact ⟨by decide, isAscii_commas hquotes, by decide⟩

end Json

end ProfileCompiler
