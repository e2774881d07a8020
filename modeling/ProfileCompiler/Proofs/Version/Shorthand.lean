import Mathlib.Data.List.Basic
import Mathlib.Data.List.GetD
import Mathlib.Tactic.IntervalCases
import ProfileCompiler.Proofs.Version.Alternative
import ProfileCompiler.Proofs.Version.Reading

/-!
# What the shorthands of a range stand for

A shorthand is turned into the texts of clauses and these are read.  `VersionRange.Denotes` says
which versions a text stands for in the end.  A caret or tilde text becomes the base as a lower
bound and the base raised at one position as an upper bound; the position is the last of those at
which a version has to agree with the base (`denotes_span`), so the two bounds together ask for this
agreement.

An upper bound is written with the raised number in it.  That number may have one digit more than
the numeral it comes from, and then it may have too many (`Dotted.RaisableAt`).
-/

namespace ProfileCompiler

/-! ## Releases of a shorthand -/

namespace Dotted

variable (a : Dotted)

/-- A position up to the first number that is not zero, or up to the last one if all are zero. -/
def Leads (i : Nat) : Prop := i < a.numbers.length ∧ ∀ j < i, a.numbers.getD j 0 = 0

/-- The number at a position has no more digits than can be written when it is raised by one. -/
def RaisableAt (i : Nat) : Prop :=
  (Nat.toDigits 10 (a.numbers.getD i 0 + 1)).length ≤ Text.digitLimit

/-- The version is not less than the release and agrees with it at the fixed positions, its epoch
being zero. -/
def Between (fixed : Nat → Prop) (v : Version) : Prop :=
  v.order a.version ≠ .lt ∧ v.epoch = 0 ∧ ∀ i, fixed i → AgreeAt v.release a.numbers i

/-- The release raised at a position. -/
def raised (i : Nat) : Dotted := ofNumbers (raisedAt a.numbers i) (by simp [raisedAt])

variable {a} {i : Nat}

@[simp] lemma numbers_raised : (a.raised i).numbers = raisedAt a.numbers i := numbers_ofNumbers _ _

lemma readable_raised (ha : a.Readable) (hi : a.RaisableAt i) : (a.raised i).Readable := by
  intro cs hcs
  simp only [raised, ofNumbers, raisedAt, List.map_append, List.mem_append, List.map_singleton,
    List.mem_singleton] at hcs
  rcases hcs with hcs | rfl
  · obtain ⟨n, hn, rfl⟩ := List.mem_map.1 hcs
    obtain ⟨ds, hds, rfl⟩ := List.mem_map.1 (List.mem_of_mem_take hn)
    exact (Text.length_toDigits_value_le (a.isNumeral ds hds)).trans (ha ds hds)
  · exact hi

/-- The positions that lead are those up to the one that `Term.leading` finds. -/
lemma leads_iff (a : Dotted) (j : Nat) :
    a.Leads j ↔ j ≤ Term.leading (a.numbers.map Int.ofNat) := by
  have hpos := a.length_numbers_pos
  rw [Leads, Term.leading]
  generalize a.numbers = ns at hpos
  rw [List.findIdx?_map, List.length_map]
  cases h : ns.findIdx? ((· != (0 : Int)) ∘ Int.ofNat) with
  | some i =>
    obtain ⟨hi, hfirst, hbefore⟩ := List.findIdx?_eq_some_iff_getElem.1 h
    simp only [Function.comp_apply, Int.ofNat_eq_natCast, bne_iff_ne, ne_eq, Int.natCast_eq_zero,
      not_not] at hfirst hbefore
    constructor
    · -- Behind the first number that is not zero no position leads.
      rintro ⟨-, hzeros⟩
      by_contra hlt
      have hzero := hzeros i (Nat.lt_of_not_le hlt)
      rw [List.getD_eq_getElem _ _ hi] at hzero
      exact hfirst hzero
    · intro hj
      have hji : j ≤ i := hj
      refine ⟨by omega, fun k hk => ?_⟩
      rw [List.getD_eq_getElem _ _ (by omega)]
      exact hbefore k (by omega)
  | none =>
    -- All numbers are zero, and every position leads.
    have hzeros : ∀ n ∈ ns, n = 0 := by simpa using h
    constructor
    · rintro ⟨hj, -⟩
      exact Nat.le_sub_one_of_lt hj
    · intro hj
      have hlast : j ≤ ns.length - 1 := hj
      refine ⟨by omega, fun k hk => ?_⟩
      rw [List.getD_eq_getElem _ _ (by omega)]
      exact hzeros _ (List.getElem_mem _)

/-- What is between a release and the release raised at a position agrees with it up to there. -/
lemma between_le_iff {v : Version} (hi : i < a.numbers.length) :
    a.Between (· ≤ i) v ↔
      v.order a.version ≠ .lt ∧ v.order (a.raised i).version.opening = .lt := by
  rw [Between, version, version, Version.order_opening_eq_lt_iff, numbers_raised]
  refine and_congr_right fun hlow => and_congr_right fun hepoch => ?_
  exact (compareRelease_raised_eq_lt_iff hi (Version.compareRelease_ne_lt hepoch hlow)).symm

end Dotted

/-! ## Terms of a release -/

namespace Term

variable {a : Dotted} {i : Nat}

lemma mapM_integer?_of_readable {numerals : List (List Char)}
    (h : ∀ cs ∈ numerals, Text.IsNumeral cs)
    (hshort : ∀ cs ∈ numerals, cs.length ≤ Text.digitLimit) :
    numerals.mapM Text.integer? = some ((numerals.map Text.value).map Int.ofNat) := by
  induction numerals with
  | nil => rfl
  | cons cs numerals ih =>
    obtain ⟨hcs, hnumerals⟩ := List.forall_mem_cons.1 h
    obtain ⟨hfirst, hmore⟩ := List.forall_mem_cons.1 hshort
    rw [List.mapM_cons, Text.integer?_of_isNumeral hcs, if_neg (Nat.not_lt.2 hfirst),
      ih hnumerals hmore]
    rfl

lemma mapM_integer?_of_not_readable {numerals : List (List Char)}
    (h : ∀ cs ∈ numerals, Text.IsNumeral cs)
    (hlong : ¬ ∀ cs ∈ numerals, cs.length ≤ Text.digitLimit) :
    numerals.mapM Text.integer? = none := by
  induction numerals with
  | nil => exact absurd (List.forall_mem_nil _) hlong
  | cons cs numerals ih =>
    obtain ⟨hcs, hnumerals⟩ := List.forall_mem_cons.1 h
    rw [List.mapM_cons, Text.integer?_of_isNumeral hcs]
    by_cases hfirst : Text.digitLimit < cs.length
    · rw [if_pos hfirst]
      rfl
    · rw [List.forall_mem_cons, not_and] at hlong
      rw [if_neg hfirst, ih hnumerals (hlong (Nat.not_lt.1 hfirst))]
      rfl

lemma pieces_text (a : Dotted) : Text.pieces (· == '.') a.text = a.numerals :=
  a.pieces_text rfl fun c hc => by simpa using Text.ne_of_isDigit hc rfl

/-- The numbers of a release are read if none of them has too many digits. -/
lemma numbers_text (ha : a.Readable) : numbers a.text = .ok (a.numbers.map Int.ofNat) := by
  rw [numbers, pieces_text, mapM_integer?_of_readable a.isNumeral ha]
  rfl

lemma numbers_text_of_not_readable (ha : ¬ a.Readable) :
    numbers a.text = .error (.badVersion (Text.quoted (String.ofList a.text))) := by
  rw [numbers, pieces_text, mapM_integer?_of_not_readable a.isNumeral ha]

lemma raised_map (ns : List Nat) (i : Nat) :
    raised (ns.map Int.ofNat) i = (raisedAt ns i).map Int.ofNat := by
  have hget : (ns.map Int.ofNat).getD i 0 = Int.ofNat (ns.getD i 0) := by
    rw [List.getD_eq_getElem?_getD, List.getD_eq_getElem?_getD, List.getElem?_map]
    cases ns[i]? <;> rfl
  rw [raised, raisedAt, hget, ← List.map_take, List.map_append]
  rfl

/-- Numbers are written if none of them has too many digits. -/
lemma mapM_decimal?_of_short {ns : List Nat}
    (h : ∀ n ∈ ns, (Nat.toDigits 10 n).length ≤ Text.digitLimit) :
    (ns.map Int.ofNat).mapM Text.decimal? = some (ns.map fun n : Nat => toString (n : Int)) := by
  induction ns with
  | nil => rfl
  | cons n ns ih =>
    obtain ⟨hfirst, hmore⟩ := List.forall_mem_cons.1 h
    rw [List.map_cons, List.mapM_cons, Int.ofNat_eq_natCast, Text.decimal?_natCast hfirst, ih hmore]
    rfl

/-- Numbers are not written if one of them has too many digits. -/
lemma mapM_decimal?_of_long {ns : List Nat} {n : Nat} (hmem : n ∈ ns)
    (h : Text.digitLimit < (Nat.toDigits 10 n).length) :
    (ns.map Int.ofNat).mapM Text.decimal? = none := by
  induction ns with
  | nil => cases hmem
  | cons m ns ih =>
    rw [List.map_cons, List.mapM_cons]
    rcases List.mem_cons.1 hmem with rfl | hmem
    · have hnone : Text.decimal? (Int.ofNat n) = none := Text.decimal?_eq_none_iff.2 h
      rw [hnone]
      rfl
    · rw [ih hmem]
      cases Text.decimal? (Int.ofNat m) <;> rfl

/-- The bounds of a release and of the release raised at a position. -/
lemma span_text (ha : a.Readable) (hi : a.RaisableAt i) :
    span a.text (a.numbers.map Int.ofNat) i =
      .ok [['>', '='] ++ a.text, ['<'] ++ (a.raised i).text] := by
  have hshort : ∀ n ∈ raisedAt a.numbers i, (Nat.toDigits 10 n).length ≤ Text.digitLimit :=
    fun n hn => Dotted.readable_raised ha hi (Nat.toDigits 10 n) (List.mem_map_of_mem hn)
  have htext : dotted (((raisedAt a.numbers i).map fun n : Nat => toString (n : Int)).map
      String.toList) = (a.raised i).text := by
    rw [List.map_map, Dotted.raised, Dotted.text, Dotted.ofNumbers]
    exact congrArg dotted (List.map_congr_left fun n _ => Text.toList_toString n)
  rw [span, raised_map, mapM_decimal?_of_short hshort, ← htext]
  rfl

/-- There is no upper bound if the raised number has too many digits. -/
lemma span_text_of_not_raisable (hi : ¬ a.RaisableAt i) :
    span a.text (a.numbers.map Int.ofNat) i = .error .overlongNumber := by
  have hraised : a.numbers.getD i 0 + 1 ∈ raisedAt a.numbers i := by simp [raisedAt]
  rw [span, raised_map, mapM_decimal?_of_long hraised (Nat.lt_of_not_le hi)]
  rfl

/-! ## Clauses of a shorthand -/

/-- The signs of a range that fixes the first two numbers. -/
def IsTilde (sign : List Char) : Prop := sign = ['~'] ∨ sign = ['~', '>']

lemma clauses_tilde {sign : List Char} (hsign : IsTilde sign) (a : Dotted) :
    clauses (sign ++ a.text) =
      (numbers a.text).bind fun ns => span a.text ns (min (ns.length - 1) 1) := by
  obtain ⟨d, ds, more, -, htext⟩ := a.exists_text_eq
  have hd : ∀ c : Char, c.isDigit = false → c ≠ '.' → d ≠ c := fun c hdigit hpoint =>
    a.ne_of_mem (htext ▸ List.mem_cons_self) hdigit hpoint
  have hbase : tildeBase (sign ++ a.text) = a.text := by
    rw [htext]
    rcases hsign with rfl | rfl <;>
      simp [tildeBase, hd '~' rfl (by decide), hd '>' rfl (by decide), hd '=' rfl (by decide)]
  have hequal : ∀ rest, sign ++ a.text ≠ '~' :: '=' :: rest := by
    intro rest h
    rw [htext] at h
    rcases hsign with rfl | rfl
    · exact hd '=' rfl (by decide) (List.cons.inj (List.cons.inj h).2).1
    · exact absurd (List.cons.inj (List.cons.inj h).2).1 (by decide)
  obtain ⟨rest, hrest⟩ : ∃ rest, sign ++ a.text = '~' :: rest := by
    rcases hsign with rfl | rfl <;> exact ⟨_, rfl⟩
  rw [hrest] at hbase hequal ⊢
  rw [clauses]
  · rw [hbase]
    rfl
  · intro more h
    exact hequal more (congrArg _ h)

lemma clauses_caret (a : Dotted) :
    clauses (['^'] ++ a.text) =
      (numbers a.text).bind fun ns => span a.text ns (leading ns) := rfl

/-- A text that starts with a digit has no sign. -/
lemma clauses_of_isDigit {d : Char} (hd : d.isDigit = true) (rest : List Char) :
    clauses (d :: rest) = .ok (bare (d :: rest)) := by
  have hsign : ∀ c : Char, c.isDigit = false → ∀ more, d :: rest = c :: more → False :=
    fun c hc more h => Text.ne_of_isDigit hd hc (List.cons.inj h).1
  rw [clauses]
  · exact fun more => hsign '~' rfl _
  · exact fun more => hsign '~' rfl _
  · exact fun more => hsign '^' rfl _
  · exact fun more => hsign '=' rfl _
  · exact fun more => hsign '=' rfl _
  · exact fun more => hsign '<' rfl _
  · exact fun more => hsign '>' rfl _
  · exact fun more => hsign '!' rfl _

lemma isWildcard_of_isNumeral {cs : List Char} (h : Text.IsNumeral cs) : isWildcard cs = false := by
  rw [Bool.eq_false_iff]
  intro hwild
  have hdigits := h.2
  simp only [isWildcard, Bool.or_eq_true, beq_iff_eq, or_assoc] at hwild
  rcases hwild with rfl | rfl | rfl <;> exact absurd (hdigits _ List.mem_cons_self) (by decide)

lemma clauses_text (a : Dotted) : clauses a.text = .ok [['=', '='] ++ a.text] := by
  obtain ⟨d, ds, more, -, htext⟩ := a.exists_text_eq
  have hd : d.isDigit = true := a.isDigit_of_text_eq htext
  have hplain : a.numerals.any isWildcard = false := by
    rw [List.any_eq_false]
    exact fun cs hcs => by simp [isWildcard_of_isNumeral (a.isNumeral cs hcs)]
  rw [htext, clauses_of_isDigit hd, ← htext, bare]
  simp only [pieces_text, hplain, Bool.false_eq_true, if_false]

/-- The release in front of a wildcard. -/
lemma clauses_wildcard {w : Char} (hw : isWildcard [w] = true) (a : Dotted) :
    clauses (a.text ++ ['.', w]) = .ok [['=', '='] ++ (a.text ++ ['.', '*'])] := by
  obtain ⟨d, ds, more, -, htext⟩ := a.exists_text_eq
  have hd : d.isDigit = true := a.isDigit_of_text_eq htext
  have hpieces : Text.pieces (· == '.') (a.text ++ ['.', w]) = a.numerals ++ [[w]] := by
    have hpoint : (w == '.') = false := by
      rw [beq_eq_false_iff_ne]
      rintro rfl
      exact absurd hw (by decide)
    rw [Text.pieces_append_cons rfl, pieces_text, Text.pieces_eq_singleton (by simpa using hpoint)]
  have hfixed : (a.numerals ++ [[w]]).takeWhile (fun piece => !isWildcard piece) = a.numerals := by
    rw [List.takeWhile_append_of_pos fun cs hcs => by
      simp [isWildcard_of_isNumeral (a.isNumeral cs hcs)]]
    simp [hw]
  have hclauses : clauses (a.text ++ ['.', w]) = .ok (bare (a.text ++ ['.', w])) := by
    rw [htext, List.cons_append, clauses_of_isDigit hd]
  obtain ⟨cs, numerals, hnumerals⟩ := List.exists_cons_of_ne_nil a.nonempty
  rw [hclauses, bare]
  simp only [hpieces, hfixed, List.any_append, List.any_cons, hw, Bool.true_or, Bool.or_true,
    if_true]
  rw [hnumerals]
  simp only [← hnumerals, List.append_assoc]
  rfl

end Term

namespace VersionRange

variable {a b : Dotted} {text : List Char} {i : Nat}

/-- A text is a range that takes in the versions of which `p` holds, and no others. -/
def Denotes (text : List Char) (p : Version → Prop) : Prop :=
  ∃ range, ofText (String.ofList text) = .ok range ∧
    ∀ v, ∃ accepted, range.contains v = .ok accepted ∧ (accepted = true ↔ p v)

/-- A text is a range that takes in a version. -/
def TakesIn (text : List Char) (v : Version) : Prop :=
  ∃ range, ofText (String.ofList text) = .ok range ∧ range.contains v = .ok true

lemma Denotes.congr {p q : Version → Prop} (h : Denotes text p) (hpq : ∀ v, p v ↔ q v) :
    Denotes text q := by
  rwa [← funext fun v => propext (hpq v)]

lemma Denotes.takesIn_iff {p : Version → Prop} (h : Denotes text p) (v : Version) :
    TakesIn text v ↔ p v := by
  obtain ⟨range, hrange, hcontains⟩ := h
  obtain ⟨accepted, haccepted, hp⟩ := hcontains v
  rw [← hp, TakesIn, hrange]
  simp [haccepted]

/-- A text denotes what its clauses ask for together. -/
lemma denotes_of_clauseTexts {texts : List (List Char)} {clauses : List Clause}
    (hbar : ∀ c ∈ text, c ≠ '|') (htexts : clauseTexts text = .ok texts)
    (hread : readClauses? texts = some ⟨clauses, none⟩) :
    Denotes text fun v => ∀ clause ∈ clauses, clause.accepts v = true := by
  refine ⟨⟨String.ofList text, [⟨clauses, none⟩]⟩, ?_, fun v => ?_⟩
  · rw [ofText_ofList hbar, readAlternative, htexts]
    simp [hread, bind, Except.bind, Except.map]
  · refine ⟨clauses.all fun clause => clause.accepts v, ?_, List.all_eq_true⟩
    rw [contains, meetsOne, Alternative.accepts]
    cases clauses.all fun clause => clause.accepts v <;> rfl

lemma isPlain_text (a : Dotted) : IsPlain a.text := fun c hc =>
  ⟨a.ne_of_mem hc rfl (by decide), a.ne_of_mem hc rfl (by decide), a.isBlank_of_mem hc⟩

lemma text_ne_nil (a : Dotted) : a.text ≠ [] := by
  obtain ⟨d, ds, more, -, htext⟩ := a.exists_text_eq
  simp [htext]

lemma words_text (a : Dotted) : Text.words a.text = [a.text] :=
  Text.words_eq_singleton (text_ne_nil a) fun _ => a.isBlank_of_mem

lemma denotes_of_isPlain {texts : List (List Char)} {clauses : List Clause} (hne : text ≠ [])
    (hhyphen : text ≠ ['-']) (hplain : IsPlain text) (htexts : Term.clauses text = .ok texts)
    (hread : readClauses? texts = some ⟨clauses, none⟩) :
    Denotes text fun v => ∀ clause ∈ clauses, clause.accepts v = true :=
  denotes_of_clauseTexts (fun c hc => (hplain c hc).1)
    ((clauseTexts_of_isPlain hne hhyphen hplain).trans htexts) hread

/-! ## The shorthands one by one -/

lemma isPlain_sign_text {sign : List Char} (hsign : IsPlain sign) (a : Dotted) :
    IsPlain (sign ++ a.text) :=
  isPlain_append.2 ⟨hsign, isPlain_text a⟩

lemma sign_text_ne_hyphen {sign : List Char} (hne : sign ≠ []) (a : Dotted) :
    sign ++ a.text ≠ ['-'] := by
  intro h
  rcases List.append_eq_singleton_iff.1 h with ⟨hsign, -⟩ | ⟨-, htext⟩
  · exact hne hsign
  · exact text_ne_nil a htext

/-- The bounds of a shorthand that fixes the positions up to one: at least the base, and below the
base raised there. -/
lemma denotes_span {sign : List Char} (hplain : IsPlain sign) (hne : sign ≠ [])
    (hclauses : Term.clauses (sign ++ a.text) = Term.span a.text (a.numbers.map Int.ofNat) i)
    (ha : a.Readable) (hraise : a.RaisableAt i) (hi : i < a.numbers.length) :
    Denotes (sign ++ a.text) (a.Between (· ≤ i)) := by
  have hupper := Dotted.readable_raised ha hraise
  have hread : readClauses? [['>', '='] ++ a.text, ['<'] ++ (a.raised i).text] =
      some ⟨[.atLeast a.version, .below (a.raised i).version], none⟩ := by
    refine readClauses?_eq_some (.cons ⟨by simp, isPlain_sign_text (by decide) a, ?_⟩
      (.cons ⟨by simp, isPlain_sign_text (by decide) _, ?_⟩ .nil))
    · exact Clause.read?_atLeast ha
    · exact Clause.read?_below hupper
  refine (denotes_of_isPlain (by simp [hne]) (sign_text_ne_hyphen hne a)
    (isPlain_sign_text hplain a) (hclauses.trans (Term.span_text ha hraise)) hread).congr
      fun v => ?_
  rw [Dotted.between_le_iff hi, List.forall_mem_cons, List.forall_mem_singleton]
  simp only [Clause.accepts, bne_iff_ne, Clause.isBelow, beq_iff_eq]
  rw [ne_eq, Version.withoutLocal_order_eq_lt_iff rfl]

/-- A caret fixes the positions that lead. -/
lemma denotes_caret (ha : a.Readable) (hraise : ∀ i, a.Leads i → a.RaisableAt i) :
    Denotes (['^'] ++ a.text) (a.Between a.Leads) := by
  have hlast : a.Leads (Term.leading (a.numbers.map Int.ofNat)) := (a.leads_iff _).2 le_rfl
  have hclauses : Term.clauses (['^'] ++ a.text) = Term.span a.text (a.numbers.map Int.ofNat)
      (Term.leading (a.numbers.map Int.ofNat)) := by
    rw [Term.clauses_caret, Term.numbers_text ha]
    rfl
  refine (denotes_span (by decide) (by decide) hclauses ha (hraise _ hlast)
    hlast.1).congr fun v => ?_
  rw [← funext fun i => propext (a.leads_iff i)]

/-- A tilde fixes the first two positions, or the only one. -/
lemma denotes_tilde {sign : List Char} (hsign : Term.IsTilde sign) (ha : a.Readable)
    (hraise : a.RaisableAt (min a.numbers.length 2 - 1)) :
    Denotes (sign ++ a.text) (a.Between (· < min a.numbers.length 2)) := by
  have hpos := a.length_numbers_pos
  have hlast : min (a.numbers.length - 1) 1 = min a.numbers.length 2 - 1 := by omega
  have hclauses : Term.clauses (sign ++ a.text) = Term.span a.text (a.numbers.map Int.ofNat)
      (min a.numbers.length 2 - 1) := by
    rw [Term.clauses_tilde hsign, Term.numbers_text ha, ← hlast, ← List.length_map Int.ofNat]
    rfl
  have hplain : IsPlain sign ∧ sign ≠ [] := by rcases hsign with rfl | rfl <;> decide
  refine (denotes_span hplain.1 hplain.2 hclauses ha hraise (by omega)).congr
    fun v => ?_
  rw [← funext fun i => propext (show i < min a.numbers.length 2 ↔ i ≤ _ by omega)]

/-- A release alone stands for its versions, whatever their local label. -/
lemma denotes_text (ha : a.Readable) :
    Denotes a.text fun v => v.withoutLocal.order a.version = .eq := by
  have hread : readClauses? [['=', '='] ++ a.text] = some ⟨[.exactly a.version], none⟩ :=
    readClauses?_eq_some (.cons ⟨by simp, isPlain_sign_text (by decide) a,
      Clause.read?_exactly ha⟩ .nil)
  have hhyphen : a.text ≠ ['-'] := fun h => absurd (a.isDigit_of_text_eq h) (by decide)
  refine (denotes_of_isPlain (text_ne_nil a) hhyphen (isPlain_text a) (Term.clauses_text a)
    hread).congr fun v => ?_
  simp only [List.forall_mem_singleton, Clause.accepts, Clause.isExactly, beq_iff_eq]
  rfl

/-- A release with a wildcard behind it stands for what starts with its numbers. -/
lemma denotes_wildcard {w : Char} (hw : Term.isWildcard [w] = true) (ha : a.Readable) :
    Denotes (a.text ++ ['.', w]) fun v =>
      v.epoch = 0 ∧ ∀ i < a.numbers.length, AgreeAt v.release a.numbers i := by
  have hplain : IsPlain ['.', w] := by
    simp only [Term.isWildcard, Bool.or_eq_true, beq_iff_eq, List.singleton_inj, or_assoc] at hw
    rcases hw with rfl | rfl | rfl <;> decide
  have hread : readClauses? [['=', '='] ++ (a.text ++ ['.', '*'])] =
      some ⟨[.within 0 a.numbers], none⟩ := by
    refine readClauses?_eq_some (.cons ⟨by simp, ?_, Clause.read?_within ha⟩ .nil)
    exact isPlain_append.2 ⟨by decide, isPlain_append.2 ⟨isPlain_text a, by decide⟩⟩
  refine (denotes_of_isPlain (by simp) ?_ (isPlain_append.2 ⟨isPlain_text a, hplain⟩)
    (Term.clauses_wildcard hw a) hread).congr fun v => ?_
  · intro h
    simpa using congrArg List.length h
  · simp only [List.forall_mem_singleton, Clause.accepts, Clause.isWithin, Bool.and_eq_true,
      beq_iff_eq, startsWith_iff]

lemma clauseTexts_hyphen (a b : Dotted) :
    clauseTexts (a.text ++ [' ', '-', ' '] ++ b.text) =
      .ok [['>', '='] ++ a.text, ['<', '='] ++ b.text] := by
  have hstrip : Text.strip (a.text ++ [' ', '-', ' '] ++ b.text) =
      a.text ++ [' ', '-', ' '] ++ b.text := by
    refine Text.strip_eq_self (by simp) ?_ ?_
    · intro c hc
      rw [List.append_assoc, List.head?_append_of_ne_nil _ (text_ne_nil a)] at hc
      exact a.isBlank_of_mem (List.mem_of_mem_head? hc)
    · intro c hc
      rw [List.getLast?_append_of_ne_nil _ (text_ne_nil b)] at hc
      exact b.isBlank_of_mem (List.mem_of_getLast? hc)
  have hwords : Text.words (a.text ++ [' ', '-', ' '] ++ b.text) = [a.text, ['-'], b.text] := by
    have hgap : ∀ c ∈ [' '], Text.isBlank c = true := List.forall_mem_singleton.2 rfl
    have hcut : a.text ++ [' ', '-', ' '] ++ b.text =
        a.text ++ [' '] ++ (['-'] ++ [' '] ++ b.text) := by simp
    rw [hcut, Text.words_append_blanks_append (by simp) hgap,
      Text.words_append_blanks_append (by simp) hgap, words_text, words_text]
    rfl
  rw [clauseTexts]
  simp only [hstrip, hwords]
  rw [if_neg]
  simp [Term.isWildcard, List.append_eq_singleton_iff]

/-- Two releases with a hyphen between blanks are the bounds, both included. -/
lemma denotes_hyphen (ha : a.Readable) (hb : b.Readable) :
    Denotes (a.text ++ [' ', '-', ' '] ++ b.text) fun v =>
      v.withoutLocal.order a.version ≠ .lt ∧ v.withoutLocal.order b.version ≠ .gt := by
  have hread : readClauses? [['>', '='] ++ a.text, ['<', '='] ++ b.text] =
      some ⟨[.atLeast a.version, .atMost b.version], none⟩ :=
    readClauses?_eq_some (.cons ⟨by simp, isPlain_sign_text (by decide) a, Clause.read?_atLeast ha⟩
      (.cons ⟨by simp, isPlain_sign_text (by decide) b, Clause.read?_atMost hb⟩ .nil))
  refine (denotes_of_clauseTexts ?_ (clauseTexts_hyphen a b) hread).congr fun v => ?_
  · simp only [List.forall_mem_append]
    exact ⟨⟨fun c hc => (isPlain_text a c hc).1, by simp⟩, fun c hc => (isPlain_text b c hc).1⟩
  · rw [List.forall_mem_cons, List.forall_mem_singleton]
    simp only [Clause.accepts, bne_iff_ne]

/-- Behind a sign a release with a number of too many digits is refused. -/
lemma ofText_of_not_readable {sign : List Char} (hsign : sign = ['^'] ∨ Term.IsTilde sign)
    (ha : ¬ a.Readable) : ofText (String.ofList (sign ++ a.text)) =
      .error (.badVersion (Text.quoted (String.ofList a.text))) := by
  have hclauses : Term.clauses (sign ++ a.text) =
      .error (.badVersion (Text.quoted (String.ofList a.text))) := by
    rcases hsign with rfl | hsign
    · rw [Term.clauses_caret, Term.numbers_text_of_not_readable ha]
      rfl
    · rw [Term.clauses_tilde hsign, Term.numbers_text_of_not_readable ha]
      rfl
  have hplain : IsPlain sign ∧ sign ≠ [] := by
    rcases hsign with rfl | rfl | rfl <;> decide
  have htext := isPlain_sign_text hplain.1 a
  rw [ofText_ofList fun c hc => (htext c hc).1, readAlternative,
    clauseTexts_of_isPlain (by simp [hplain.2]) (sign_text_ne_hyphen hplain.2 a) htext, hclauses]
  rfl

/-! ## All shorthands -/

/-- What has the release of an upper bound is not between the bounds. -/
lemma not_between_of_sameBase {fixed : Nat → Prop} (hfixed : fixed i) (hi : i < a.numbers.length)
    {v : Version} (hv : v.sameBase (.ofRelease (raisedAt a.numbers i)) = true) :
    ¬ a.Between fixed v := by
  rintro ⟨-, -, hagree⟩
  rw [Version.sameBase, Bool.and_eq_true, beq_iff_eq, beq_iff_eq] at hv
  have hraised : AgreeAt v.release (raisedAt a.numbers i) i := agreeAt_of_compareRelease_eq hv.2 i
  exact not_agreeAt_raisedAt hi (hraised.symm.trans (hagree i hfixed))

/-- The versions that each shorthand of a readable release takes in: with a caret or a tilde what is
not less than the release and agrees with it at the fixed positions, with a wildcard what starts
with it, alone the release itself, and with a hyphen what lies between two releases.  Nothing with
the release of the upper bound of a caret or a tilde comes in, and so no pre-release of it.  A caret
or a tilde in front of a release that is not readable is refused. -/
theorem denotes_shorthand (a : Dotted) :
    (a.Readable →
      ((∀ i, a.Leads i → a.RaisableAt i) →
        Denotes (['^'] ++ a.text) (a.Between a.Leads) ∧
        ∀ i, a.Leads i → ∀ v, v.sameBase (.ofRelease (raisedAt a.numbers i)) = true →
          ¬ TakesIn (['^'] ++ a.text) v) ∧
      (a.RaisableAt (min a.numbers.length 2 - 1) → ∀ sign, Term.IsTilde sign →
        Denotes (sign ++ a.text) (a.Between (· < min a.numbers.length 2)) ∧
        ∀ i < min a.numbers.length 2, ∀ v,
          v.sameBase (.ofRelease (raisedAt a.numbers i)) = true → ¬ TakesIn (sign ++ a.text) v) ∧
      (∀ w ∈ ['x', 'X', '*'], Denotes (a.text ++ ['.', w]) fun v =>
        v.epoch = 0 ∧ ∀ i < a.numbers.length, AgreeAt v.release a.numbers i) ∧
      (Denotes a.text fun v => v.withoutLocal.order a.version = .eq) ∧
      ∀ b : Dotted, b.Readable → Denotes (a.text ++ [' ', '-', ' '] ++ b.text) fun v =>
        v.withoutLocal.order a.version ≠ .lt ∧ v.withoutLocal.order b.version ≠ .gt) ∧
    (¬ a.Readable → ∀ sign, sign = ['^'] ∨ Term.IsTilde sign →
      ofText (String.ofList (sign ++ a.text)) =
        .error (.badVersion (Text.quoted (String.ofList a.text)))) := by
  refine ⟨fun ha => ⟨fun hraise => ?_, fun hraise sign hsign => ?_, fun w hw => ?_,
    denotes_text ha, fun b hb => denotes_hyphen ha hb⟩, fun ha sign hsign =>
      ofText_of_not_readable hsign ha⟩
  · have hcaret := denotes_caret ha hraise
    refine ⟨hcaret, fun i hi v hv => ?_⟩
    rw [hcaret.takesIn_iff]
    exact not_between_of_sameBase hi hi.1 hv
  · have htilde := denotes_tilde hsign ha hraise
    refine ⟨htilde, fun i hi v hv => ?_⟩
    have hlength : i < a.numbers.length := Nat.lt_of_lt_of_le hi (Nat.min_le_left _ _)
    rw [htilde.takesIn_iff]
    exact not_between_of_sameBase (i := i) hi hlength hv
  · refine denotes_wildcard ?_ ha
    simp only [List.mem_cons, List.not_mem_nil, or_false] at hw
    rcases hw with rfl | rfl | rfl <;> rfl

/-! ## Two releases -/

/-- The release `0.02.3`. -/
def zeroPointTwo : Dotted := ⟨[['0'], ['0', '2'], ['3']], by decide, by decide⟩

/-- The release `1.10`. -/
def onePointTen : Dotted := ⟨[['1'], ['1', '0']], by decide, by decide⟩

/-- A zero of one digit more than can be read. -/
def longZero : Dotted where
  numerals := [List.replicate (Text.digitLimit + 1) '0']
  nonempty := by simp
  isNumeral := by
    rw [List.forall_mem_singleton]
    exact ⟨by simp, fun c hc => by rw [List.eq_of_mem_replicate hc]; rfl⟩

lemma not_readable_longZero : ¬ longZero.Readable := by
  intro h
  have hlength := h _ List.mem_cons_self
  rw [List.length_replicate] at hlength
  omega

lemma numbers_longZero : longZero.numbers = [0] := by
  simp [Dotted.numbers, longZero, Text.value, Nat.ofDigitChars_replicate_zero]

/-- A number with zeros in front is bounded by its value, behind a caret as behind a tilde. -/
theorem takesIn_zeroPointTwo :
    zeroPointTwo.Readable ∧ (∀ i, zeroPointTwo.Leads i → zeroPointTwo.RaisableAt i) ∧
    TakesIn "^0.02.3".toList (.ofRelease [0, 2, 9]) ∧
    ¬ TakesIn "^0.02.3".toList ⟨0, [0, 3], some (.candidate, 1), none, none, []⟩ ∧
    TakesIn "~>0.02.3".toList ⟨0, [0, 2, 4], some (.beta, 1), none, none, []⟩ ∧
    TakesIn "0.02.3.x".toList ⟨0, [0, 2, 3, 4], none, none, some 1, []⟩ ∧
    TakesIn "0.02.3".toList ⟨0, [0, 2, 3], none, none, none, [.number 7]⟩ ∧
    TakesIn "0.02.3 - 1.10".toList ⟨0, [1, 10], none, none, none, [.number 7]⟩ ∧
    ofText (String.ofList ('^' :: longZero.text)) =
      .error (.badVersion (Text.quoted (String.ofList longZero.text))) := by
  have hread : zeroPointTwo.Readable := by decide
  have hleads : ∀ i, zeroPointTwo.Leads i → i < 2 := by
    rintro i ⟨-, hzeros⟩
    by_contra hi
    exact absurd (hzeros 1 (by omega)) (by decide)
  have hraise : ∀ i, zeroPointTwo.Leads i → zeroPointTwo.RaisableAt i := by
    intro i hi
    have hlt := hleads i hi
    unfold Dotted.RaisableAt
    interval_cases i <;> decide
  obtain ⟨hcaret, htilde, hwildcard, halone, hhyphen⟩ := (denotes_shorthand zeroPointTwo).1 hread
  have hversion : zeroPointTwo.version = .ofRelease [0, 2, 3] := rfl
  have hupper : onePointTen.version = .ofRelease [1, 10] := rfl
  -- The caret fixes the positions of `0` and `02`, the tilde these two whatever they hold.
  refine ⟨hread, hraise, ?_, ?_, ?_, ?_, ?_, ?_, ?_⟩
  · refine ((hcaret hraise).1.takesIn_iff _).2 ⟨?_, rfl, fun i hi => ?_⟩
    · simp +decide [hversion, Version.ofRelease, Version.order, compareRelease]
    · have hlt := hleads i hi
      interval_cases i <;> decide
  · refine (hcaret hraise).2 1 ⟨by decide, by decide⟩ _ ?_
    have hraised : raisedAt zeroPointTwo.numbers 1 = [0, 3] := rfl
    simp [hraised, Version.ofRelease, Version.sameBase, compareRelease]
  · refine ((htilde (by unfold Dotted.RaisableAt; decide) _ (.inr rfl)).1.takesIn_iff _).2
      ⟨?_, rfl, by decide⟩
    simp +decide [hversion, Version.ofRelease, Version.order, compareRelease]
  · exact ((hwildcard 'x' (by decide)).takesIn_iff _).2 ⟨rfl, by decide⟩
  · refine (halone.takesIn_iff _).2 ?_
    simp +decide [hversion, Version.ofRelease, Version.withoutLocal, Version.order, Version.preRank,
      Version.devRank, compareRelease]
  · refine ((hhyphen onePointTen (by decide)).takesIn_iff _).2 ⟨?_, ?_⟩
    · simp +decide [hversion, Version.ofRelease, Version.withoutLocal, Version.order,
        compareRelease]
    · simp +decide [hupper, Version.ofRelease, Version.withoutLocal, Version.order, Version.preRank,
        Version.devRank, compareRelease]
  · exact (denotes_shorthand longZero).2 not_readable_longZero ['^'] (.inl rfl)

/-- A caret in front of a zero with too many digits takes in nothing, although `0.5` is not less
than this zero and agrees with it at its only position. -/
theorem not_takesIn_caret_longZero :
    longZero.Between longZero.Leads (.ofRelease [0, 5]) ∧
    ¬ TakesIn (['^'] ++ longZero.text) (.ofRelease [0, 5]) ∧
    ofText (String.ofList (['^'] ++ longZero.text)) =
      .error (.badVersion (Text.quoted (String.ofList longZero.text))) := by
  have hrefused := ofText_of_not_readable (.inl rfl) not_readable_longZero
  refine ⟨⟨?_, rfl, ?_⟩, ?_, hrefused⟩
  · rw [Dotted.version, numbers_longZero]
    simp +decide [Version.ofRelease, Version.order, compareRelease]
  · rintro i ⟨hi, -⟩
    rw [numbers_longZero] at hi ⊢
    obtain rfl : i = 0 := by simpa using hi
    rfl
  · rintro ⟨range, hrange, -⟩
    rw [hrefused] at hrange
    cases hrange

end VersionRange

end ProfileCompiler
