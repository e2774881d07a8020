import ProfileCompiler.Proofs.Outcome
import ProfileCompiler.Proofs.Version.Shorthand
import ProfileCompiler.Proofs.Version.Spacing

/-!
# A range and its terms by themselves

A term of a range can be read as a range by itself (`SpacedTerm.alone`).  A range with several terms
is refused if one of these is refused by itself, and otherwise checks its alternatives in turn and
the terms of an alternative together, each as the range that it is by itself
(`ofText_eq_error_iff_of_writes`).

In which fault a range is refused depends on the order of the work: all terms of an alternative are
turned into clauses before any clause is read, so a term with a number that cannot be read or
written comes before a term that is no clause (`Refused`).
-/

namespace ProfileCompiler

/-! ## Terms by themselves -/

namespace SpacedTerm

/-- The range that a term is by itself. -/
def alone (t : SpacedTerm) : Except Fault VersionRange :=
  VersionRange.ofText (String.ofList t.text)

/-- What a term that stands for no clauses is refused with by itself. -/
def unread (t : SpacedTerm) : Fault := .badRange (Text.quoted (String.ofList t.text))

/-- The term is turned into the texts of clauses, whether or not these can be read. -/
def IsTurned (t : SpacedTerm) : Prop := ∀ fault, t.alone = .error fault → fault = t.unread

/-- What the clauses of a term are read as: nothing if one of their texts is no clause. -/
def reading (t : SpacedTerm) : Except Fault (Option Alternative) :=
  (Term.clauses t.plain).map VersionRange.readClauses?

end SpacedTerm

/-- The faults that terms of an alternative lead to: that of the first term that is not turned into
clauses, or, if there is none, that of the whole range if a term stands for no clauses. -/
inductive Refused (source : String) (ts : List SpacedTerm) : Fault → Prop
  | number {before after : List SpacedTerm} {t : SpacedTerm} {fault : Fault}
      (hts : ts = before ++ t :: after) (hbefore : ∀ u ∈ before, u.IsTurned)
      (halone : t.alone = .error fault) (hfault : fault ≠ t.unread) : Refused source ts fault
  | clause {t : SpacedTerm} (hts : ∀ u ∈ ts, u.IsTurned) (ht : t ∈ ts)
      (halone : t.alone = .error t.unread) : Refused source ts (.badRange (Text.quoted source))

namespace Term

lemma numbers_eq_error {base : List Char} {fault : Fault} (h : numbers base = .error fault) :
    ∃ shown, fault = .badVersion shown := by
  rw [numbers] at h
  split at h
  · cases h
  · cases h
    exact ⟨_, rfl⟩

lemma span_eq_error {base : List Char} {ns : List Int} {index : Nat} {fault : Fault}
    (h : span base ns index = .error fault) : fault = .overlongNumber := by
  unfold span at h
  cases hupper : (raised ns index).mapM Text.decimal? with
  | some upper =>
    rw [hupper] at h
    cases h
  | none =>
    rw [hupper] at h
    exact (Except.error.inj h).symm

/-- A term has no clauses for one of its numbers, which cannot be read or cannot be written. -/
lemma clauses_eq_error {term : List Char} {fault : Fault} (h : clauses term = .error fault) :
    (∃ shown, fault = .badVersion shown) ∨ fault = .overlongNumber := by
  have hbounds : ∀ (base : List Char) (index : List Int → Nat),
      (numbers base >>= fun ns => span base ns (index ns)) = .error fault →
      (∃ shown, fault = .badVersion shown) ∨ fault = .overlongNumber := by
    intro base index hfault
    rcases Except.bind_eq_error_iff.1 hfault with hnumbers | ⟨ns, -, hspan⟩
    · exact .inl (numbers_eq_error hnumbers)
    · exact .inr (span_eq_error hspan)
  unfold clauses at h
  split at h
  case h_2 => exact hbounds _ (fun ns => min (ns.length - 1) 1) h
  case h_3 => exact hbounds _ leading h
  all_goals cases h

end Term

namespace SpacedTerm

variable {t : SpacedTerm} {fault : Fault}

lemma alone_eq (t : SpacedTerm) :
    t.alone = t.reading.bind fun
      | none => .error t.unread
      | some alternative => .ok ⟨String.ofList t.text, [alternative]⟩ := by
  have hwrites : WritesRange [[t]] ([] ++ t.text ++ []) :=
    .last (List.forall_mem_nil _) (List.forall_mem_nil _) (.last t)
  rw [List.nil_append, List.append_nil] at hwrites
  rw [alone, VersionRange.ofText, String.toList_ofList,
    VersionRange.alternativesOf_of_writes hwrites, List.mapM_cons, List.mapM_nil,
    VersionRange.readTerms, List.mapM_cons, List.mapM_nil, reading]
  cases Term.clauses t.plain with
  | error fault => rfl
  | ok texts =>
    have hflatten : [texts].flatten = texts := List.flatten_singleton
    simp only [bind, Except.bind, pure, Except.pure, Except.map, hflatten]
    cases VersionRange.readClauses? texts <;> rfl

lemma alone_eq_ok {a : Alternative} (h : t.reading = .ok (some a)) :
    t.alone = .ok ⟨String.ofList t.text, [a]⟩ := by
  rw [alone_eq, h]
  rfl

lemma reading_eq_error_iff : t.reading = .error fault ↔ Term.clauses t.plain = .error fault := by
  rw [reading]
  cases Term.clauses t.plain <;> simp [Except.map]

/-- The fault of a number is not the one of a clause. -/
lemma ne_unread_of_reading (h : t.reading = .error fault) : fault ≠ t.unread := by
  rintro rfl
  rcases Term.clauses_eq_error (reading_eq_error_iff.1 h) with ⟨_, hshown⟩ | hlong
  · cases hshown
  · cases hlong

lemma alone_eq_error_iff :
    t.alone = .error fault ↔
      t.reading = .error fault ∨ t.reading = .ok none ∧ fault = t.unread := by
  rw [alone_eq]
  rcases t.reading with g | _ | alternative <;> simp [Except.bind, eq_comm]

lemma alone_eq_error_of_ne_iff (hfault : fault ≠ t.unread) :
    t.alone = .error fault ↔ Term.clauses t.plain = .error fault := by
  rw [alone_eq_error_iff, ← reading_eq_error_iff]
  simp [hfault]

lemma alone_eq_unread_iff :
    t.alone = .error t.unread ↔
      ∃ texts, Term.clauses t.plain = .ok texts ∧ VersionRange.readClauses? texts = none := by
  rw [alone_eq_error_iff, or_iff_right fun h => ne_unread_of_reading h rfl, reading]
  cases Term.clauses t.plain <;> simp [Except.map]

lemma isTurned_iff : t.IsTurned ↔ ∃ texts, Term.clauses t.plain = .ok texts := by
  constructor
  · intro h
    cases hclauses : Term.clauses t.plain with
    | error fault =>
      have hreading := reading_eq_error_iff.2 hclauses
      exact absurd (h fault (alone_eq_error_iff.2 (.inl hreading))) (ne_unread_of_reading hreading)
    | ok texts => exact ⟨texts, rfl⟩
  · rintro ⟨texts, htexts⟩ fault halone
    by_contra hfault
    rw [alone_eq_error_of_ne_iff hfault, htexts] at halone
    cases halone

end SpacedTerm

namespace VersionRange

variable {ts : List SpacedTerm} {source : String} {fault : Fault} {v : Version}

/-! ## Terms of an alternative -/

/-- Whether a version is in the range that a term is by itself. -/
def checkAlone (v : Version) (t : SpacedTerm) : Except Fault Bool :=
  t.alone >>= fun range => range.contains v

/-- All terms have the texts of their clauses exactly if none is refused for a number. -/
lemma exists_mapM_clauses_iff :
    (∃ parts, (ts.mapM fun t => Term.clauses t.plain) = .ok parts) ↔ ∀ u ∈ ts, u.IsTurned := by
  simp only [Except.exists_mapM_eq_ok_iff, SpacedTerm.isTurned_iff]

/-- An alternative is refused in the faults that its terms lead to. -/
lemma readTerms_eq_error_iff : readTerms source ts = .error fault ↔ Refused source ts fault := by
  rw [readTerms, Except.bind_eq_error_iff]
  constructor
  · rintro (hturn | ⟨parts, hparts, hfault⟩)
    · -- A term has no clauses, and the terms before it have.
      obtain ⟨before, t, after, rfl, hbefore, ht⟩ := Except.mapM_eq_error_iff.1 hturn
      have hreading := SpacedTerm.reading_eq_error_iff.2 ht
      exact .number rfl (fun u hu => SpacedTerm.isTurned_iff.2 (hbefore u hu))
        (SpacedTerm.alone_eq_error_iff.2 (.inl hreading)) (SpacedTerm.ne_unread_of_reading hreading)
    · -- All terms have clauses, and some of these cannot be read.
      cases hread : readClauses? parts.flatten with
      | some alternative =>
        rw [hread] at hfault
        cases hfault
      | none =>
        rw [hread] at hfault
        cases hfault
        obtain ⟨texts, htexts, hnone⟩ := readClauses?_flatten_eq_none_iff.1 hread
        obtain ⟨t, ht, hclauses⟩ := Except.exists_of_mem_mapM hparts htexts
        exact .clause (exists_mapM_clauses_iff.1 ⟨parts, hparts⟩) ht
          (SpacedTerm.alone_eq_unread_iff.2 ⟨texts, hclauses, hnone⟩)
  · intro h
    cases h with
    | number hts hbefore halone hfault =>
      refine .inl (Except.mapM_eq_error_iff.2 ⟨_, _, _, hts, fun u hu => ?_, ?_⟩)
      · exact SpacedTerm.isTurned_iff.1 (hbefore u hu)
      · exact (SpacedTerm.alone_eq_error_of_ne_iff hfault).1 halone
    | clause hts ht halone =>
      obtain ⟨parts, hparts⟩ := exists_mapM_clauses_iff.2 hts
      obtain ⟨texts, hclauses, hnone⟩ := SpacedTerm.alone_eq_unread_iff.1 halone
      obtain ⟨part, hpart, hsame⟩ := Except.exists_of_mapM_eq_ok hparts ht
      obtain rfl : texts = part := Except.ok.inj (hclauses.symm.trans hsame)
      refine .inr ⟨parts, hparts, ?_⟩
      rw [readClauses?_flatten_eq_none_iff.2 ⟨texts, hpart, hnone⟩]

lemma contains_singleton (source : String) (a : Alternative) (v : Version) :
    (⟨source, [a]⟩ : VersionRange).contains v = a.accepts v := by
  rw [contains, meetsOne, meetsOne]
  rcases a.accepts v with _ | _ | _ <;> rfl

lemma checkAlone_eq {t : SpacedTerm} {a : Alternative} (h : t.reading = .ok (some a))
    (v : Version) : checkAlone v t = a.accepts v := by
  rw [checkAlone, SpacedTerm.alone_eq_ok h, ← contains_singleton (String.ofList t.text)]
  rfl

/-- Terms of which the clauses are read are checked together, each as the range that it is. -/
lemma accepts_of_readClauses? {parts : List (List (List Char))} {a : Alternative}
    (hparts : List.Forall₂ (fun (t : SpacedTerm) texts => Term.clauses t.plain = .ok texts)
      ts parts)
    (hread : readClauses? parts.flatten = some a) :
    (∀ t ∈ ts, ∃ range, t.alone = .ok range) ∧
      ∀ v, a.accepts v = allOf (ts.map (checkAlone v)) := by
  induction hparts generalizing a with
  | nil =>
    cases hread
    exact ⟨List.forall_mem_nil _, fun v => rfl⟩
  | @cons t texts ts parts ht hparts ih =>
    rw [List.flatten_cons, readClauses?_append] at hread
    obtain ⟨b, hb, hread⟩ := Option.bind_eq_some_iff.1 hread
    obtain ⟨c, hc, rfl⟩ := Option.map_eq_some_iff.1 hread
    obtain ⟨hmore, haccepts⟩ := ih hc
    have hreading : t.reading = .ok (some b) := by
      rw [SpacedTerm.reading, ht, Except.map, hb]
    refine ⟨List.forall_mem_cons.2 ⟨⟨_, SpacedTerm.alone_eq_ok hreading⟩, hmore⟩, fun v => ?_⟩
    rw [Alternative.accepts_both, haccepts, List.map_cons, checkAlone_eq hreading]
    rfl

lemma accepts_of_readTerms {a : Alternative} (h : readTerms source ts = .ok a) :
    (∀ t ∈ ts, ∃ range, t.alone = .ok range) ∧
      ∀ v, a.accepts v = allOf (ts.map (checkAlone v)) := by
  rw [readTerms] at h
  cases hparts : ts.mapM fun t => Term.clauses t.plain with
  | error fault =>
    rw [hparts] at h
    cases h
  | ok parts =>
    rw [hparts] at h
    cases hread : readClauses? parts.flatten with
    | none => simp [bind, Except.bind, hread] at h
    | some b =>
      obtain rfl : b = a := by simpa [bind, Except.bind, hread] using h
      exact accepts_of_readClauses? (Except.mapM_eq_ok_iff.1 hparts) hread

/-- Terms that lead to a fault do not all stand by themselves. -/
lemma exists_alone_eq_error_of_refused (h : Refused source ts fault) :
    ∃ t ∈ ts, ∃ fault, t.alone = .error fault := by
  cases h with
  | @number before after t _ hts _ halone _ =>
    exact ⟨t, hts ▸ List.mem_append_right _ List.mem_cons_self, fault, halone⟩
  | clause _ ht halone => exact ⟨_, ht, _, halone⟩

/-- An alternative is read if its terms are by themselves. -/
lemma exists_readTerms_eq_ok_iff :
    (∃ a, readTerms source ts = .ok a) ↔ ∀ t ∈ ts, ∃ range, t.alone = .ok range := by
  constructor
  · rintro ⟨a, ha⟩
    exact (accepts_of_readTerms ha).1
  · intro h
    cases hread : readTerms source ts with
    | ok a => exact ⟨a, rfl⟩
    | error fault =>
      obtain ⟨t, ht, fault, halone⟩ :=
        exists_alone_eq_error_of_refused (readTerms_eq_error_iff.1 hread)
      obtain ⟨range, hrange⟩ := h t ht
      rw [halone] at hrange
      cases hrange

/-! ## Alternatives of a range -/

variable {alternatives : List (List SpacedTerm)} {text : List Char}

lemma ofText_eq_bind_of_writes (h : WritesRange alternatives text) :
    ofText (String.ofList text) =
      alternatives.mapM (readTerms (String.ofList text)) >>= fun as =>
        .ok ⟨String.ofList text, as⟩ := by
  rw [ofText, String.toList_ofList, alternativesOf_of_writes h]

/-- A range is refused for its first alternative with a term that is refused by itself. -/
lemma ofText_eq_error_iff (h : WritesRange alternatives text) :
    ofText (String.ofList text) = .error fault ↔
      ∃ before ts after, alternatives = before ++ ts :: after ∧
        (∀ us ∈ before, ∀ u ∈ us, ∃ range, u.alone = .ok range) ∧
        Refused (String.ofList text) ts fault := by
  rw [ofText_eq_bind_of_writes h, Except.bind_ok_eq_error_iff, Except.mapM_eq_error_iff]
  simp only [exists_readTerms_eq_ok_iff, readTerms_eq_error_iff]

/-- A range is refused if a term is refused by itself. -/
lemma exists_ofText_eq_error_iff (h : WritesRange alternatives text) :
    (∃ fault, ofText (String.ofList text) = .error fault) ↔
      ∃ ts ∈ alternatives, ∃ t ∈ ts, ∃ fault, t.alone = .error fault := by
  constructor
  · rintro ⟨fault, hfault⟩
    obtain ⟨before, ts, after, rfl, -, hrefused⟩ := (ofText_eq_error_iff h).1 hfault
    exact ⟨ts, by simp, exists_alone_eq_error_of_refused hrefused⟩
  · rintro ⟨ts, hts, t, ht, fault, halone⟩
    cases hread : alternatives.mapM (readTerms (String.ofList text)) with
    | error fault =>
      exact ⟨fault, by rw [ofText_eq_bind_of_writes h, hread]; rfl⟩
    | ok as =>
      obtain ⟨a, -, ha⟩ := Except.exists_of_mapM_eq_ok hread hts
      obtain ⟨range, hrange⟩ := (accepts_of_readTerms ha).1 t ht
      rw [halone] at hrange
      cases hrange

/-- A range that is read checks its alternatives in turn. -/
lemma contains_of_writes (h : WritesRange alternatives text) {range : VersionRange}
    (hrange : ofText (String.ofList text) = .ok range) (v : Version) :
    range.contains v = anyOf (alternatives.map fun ts => allOf (ts.map (checkAlone v))) := by
  rw [ofText_eq_bind_of_writes h] at hrange
  cases hread : alternatives.mapM (readTerms (String.ofList text)) with
  | error fault =>
    rw [hread] at hrange
    cases hrange
  | ok as =>
    rw [hread] at hrange
    cases hrange
    rw [contains_eq_anyOf]
    have hall := Except.mapM_eq_ok_iff.1 hread
    clear hread h
    congr 1
    induction hall with
    | nil => rfl
    | cons ha _ ih => rw [List.map_cons, List.map_cons, (accepts_of_readTerms ha).2 v, ih]

/-- Without a fault in a check a version is in one of the alternatives if it is in all its terms. -/
lemma anyOf_allOf_eq_ok (h : ∀ ts ∈ alternatives, ∀ t ∈ ts, ∃ b, checkAlone v t = .ok b) :
    ∃ accepted, anyOf (alternatives.map fun ts => allOf (ts.map (checkAlone v))) = .ok accepted ∧
      (accepted = true ↔ ∃ ts ∈ alternatives, ∀ t ∈ ts, checkAlone v t = .ok true) := by
  have hall : ∀ ts ∈ alternatives, ∃ met, allOf (ts.map (checkAlone v)) = .ok met ∧
      (met = true ↔ ∀ t ∈ ts, checkAlone v t = .ok true) := by
    intro ts hts
    have hchecks : ∀ check ∈ ts.map (checkAlone v), ∃ b, check = .ok b :=
      List.forall_mem_map.2 (h ts hts)
    obtain ⟨met, hmet, hiff⟩ := allOf_eq_ok hchecks
    exact ⟨met, hmet, hiff.trans List.forall_mem_map⟩
  have hmet : ∀ check ∈ alternatives.map fun ts => allOf (ts.map (checkAlone v)),
      ∃ b, check = .ok b :=
    List.forall_mem_map.2 fun ts hts => (hall ts hts).imp fun _ => And.left
  obtain ⟨accepted, haccepted, hiff⟩ := anyOf_eq_ok hmet
  refine ⟨accepted, haccepted, hiff.trans ?_⟩
  simp only [List.mem_map, exists_exists_and_eq_and]
  refine exists_congr fun ts => and_congr_right fun hts => ?_
  obtain ⟨met, hmet, hiff⟩ := hall ts hts
  rw [hmet, ← hiff, Except.ok.injEq]

/-- The faults of a range are that a version or a range cannot be read, or that a number has too
many digits. -/
lemma isVersionFault_of_refused (h : Refused source ts fault) :
    fault.isVersionFault = true ∨ fault = .overlongNumber := by
  cases h with
  | number _ _ halone hfault =>
    rcases Term.clauses_eq_error ((SpacedTerm.alone_eq_error_of_ne_iff hfault).1 halone) with
      ⟨_, rfl⟩ | hlong
    · exact .inl rfl
    · exact .inr hlong
  | clause => exact .inl rfl

/-- A range written with any blanks is refused if and only if one of its terms is refused by itself,
and it is refused in the first fault that the terms of its first such alternative lead to.  This is
one of a version or a range that cannot be read, unless a number that is raised gets too many
digits.  A range that is not refused checks its alternatives in turn and the terms of each together,
as the ranges that the terms are by themselves; without a fault among these checks it takes in the
versions that all terms of some alternative take in. -/
theorem ofText_of_writes (h : WritesRange alternatives text) :
    ((∃ fault, ofText (String.ofList text) = .error fault) ↔
      ∃ ts ∈ alternatives, ∃ t ∈ ts, ∃ fault, t.alone = .error fault) ∧
    (∀ fault, ofText (String.ofList text) = .error fault ↔
      ∃ before ts after, alternatives = before ++ ts :: after ∧
        (∀ us ∈ before, ∀ u ∈ us, ∃ range, u.alone = .ok range) ∧
        Refused (String.ofList text) ts fault) ∧
    (((∃ fault, ofText (String.ofList text) = .error fault ∧ fault.isVersionFault = true) ↔
        ∃ ts ∈ alternatives, ∃ t ∈ ts, ∃ fault, t.alone = .error fault) ↔
      ofText (String.ofList text) ≠ .error .overlongNumber) ∧
    ∀ range, ofText (String.ofList text) = .ok range → ∀ v,
      range.contains v = anyOf (alternatives.map fun ts => allOf (ts.map (checkAlone v))) ∧
      ((∀ ts ∈ alternatives, ∀ t ∈ ts, ∃ b, checkAlone v t = .ok b) →
        ∃ accepted, range.contains v = .ok accepted ∧
          (accepted = true ↔ ∃ ts ∈ alternatives, ∀ t ∈ ts, checkAlone v t = .ok true)) := by
  have hexists := exists_ofText_eq_error_iff h
  refine ⟨hexists, fun fault => ofText_eq_error_iff h, ?_, fun range hrange v => ?_⟩
  · rw [← hexists]
    constructor
    · intro hiff hlong
      obtain ⟨fault, hfault, hversion⟩ := hiff.2 ⟨_, hlong⟩
      obtain rfl : fault = .overlongNumber := Except.error.inj (hfault.symm.trans hlong)
      cases hversion
    · intro hlong
      refine ⟨fun ⟨fault, hfault, _⟩ => ⟨fault, hfault⟩, fun ⟨fault, hfault⟩ => ⟨fault, hfault, ?_⟩⟩
      obtain ⟨_, _, _, _, _, hrefused⟩ := (ofText_eq_error_iff h).1 hfault
      refine (isVersionFault_of_refused hrefused).resolve_right ?_
      rintro rfl
      exact hlong hfault
  · have hcontains := contains_of_writes h hrange v
    refine ⟨hcontains, fun hchecks => ?_⟩
    rw [hcontains]
    exact anyOf_allOf_eq_ok hchecks

/-! ## A range with blanks -/

/-- The term `>=  1.0`. -/
def atLeastOne : SpacedTerm :=
  ⟨['>', '='], [' ', ' '], ['1', '.', '0'], List.all_eq_true.1 rfl, by decide, by decide⟩

/-- The term `!=1.5`. -/
def notOneFive : SpacedTerm :=
  ⟨['!', '='], [], ['1', '.', '5'], List.forall_mem_nil _, by decide, by decide⟩

/-- The term `two`, which is no version. -/
def two : SpacedTerm :=
  ⟨[], [], ['t', 'w', 'o'], List.forall_mem_nil _, by decide, by decide⟩

/-- A release may stand behind a sign. -/
lemma isVersionText_text (a : Dotted) : IsVersionText a.text where
  nonempty := text_ne_nil a
  head c hc := a.ne_of_mem (List.mem_of_mem_head? hc) rfl (by decide)
  plain c hc := by
    refine ⟨a.isBlank_of_mem hc, fun h => ?_⟩
    simp only [List.mem_cons, List.not_mem_nil, or_false] at h
    rcases h with rfl | rfl | rfl | rfl | rfl | rfl | rfl <;>
      exact a.ne_of_mem hc rfl (by decide) rfl

/-- A release behind a caret. -/
def caret (a : Dotted) : SpacedTerm :=
  ⟨['^'], [], a.text, List.forall_mem_nil _, isVersionText_text a, by decide⟩

/-- A number that cannot be raised is a fault of its own. -/
lemma alone_caret {a : Dotted} (ha : a.Readable)
    (h : ¬ a.RaisableAt (Term.leading (a.numbers.map Int.ofNat))) :
    (caret a).alone = .error .overlongNumber := by
  have hclauses : Term.clauses (caret a).plain = .error .overlongNumber := by
    rw [caret, SpacedTerm.plain, Term.clauses_caret, Term.numbers_text ha]
    exact Term.span_text_of_not_raisable h
  exact SpacedTerm.alone_eq_error_iff.2 (.inl (SpacedTerm.reading_eq_error_iff.2 hclauses))

lemma leading_singleton (n : Int) : Term.leading [n] = 0 := by
  unfold Term.leading
  split
  · rename_i i hi
    have hlt := (List.findIdx?_eq_some_iff_getElem.1 hi).1
    simpa using hlt
  · rfl

/-- The greatest number that can be read; raised by one it cannot be written. -/
def nines : Dotted where
  numerals := [List.replicate Text.digitLimit '9']
  nonempty := by simp
  isNumeral := by
    rw [List.forall_mem_singleton]
    exact ⟨fun h => absurd ((List.replicate_eq_nil_iff '9').1 h) (by decide), fun c hc => by
      rw [List.eq_of_mem_replicate hc]; rfl⟩

lemma value_replicate_nine (n : Nat) : Text.value (List.replicate n '9') + 1 = 10 ^ n := by
  induction n with
  | zero => rfl
  | succ n ih =>
    rw [Text.value] at ih ⊢
    rw [List.replicate_succ', Nat.ofDigitChars_append, Nat.ofDigitChars_cons, Nat.ofDigitChars_nil,
      Nat.pow_succ, ← ih]
    simp only [Char.reduceToNat]
    omega

lemma readable_nines : nines.Readable := by
  intro cs hcs
  rw [List.mem_singleton.1 hcs, List.length_replicate]

lemma numbers_nines : nines.numbers = [Text.value (List.replicate Text.digitLimit '9')] :=
  List.map_singleton

lemma not_raisable_nines : ¬ nines.RaisableAt (Term.leading (nines.numbers.map Int.ofNat)) := by
  rw [Dotted.RaisableAt, numbers_nines, List.map_singleton, leading_singleton, List.getD_cons_zero,
    value_replicate_nine, Nat.length_toDigits_le_iff (by omega) (by decide)]
  exact Nat.lt_irrefl _

/-- Blanks behind a sign and around the bars change nothing, and a term that is no version is a
fault of the whole range.  A number that gets too many digits comes before that fault and is another
one. -/
theorem ofText_of_writes_two :
    (∃ range, ofText ">=  1.0 !=1.5" = .ok range ∧
      range.contains (.ofRelease [1, 2]) = .ok true) ∧
    ofText ">=  1.0 !=1.5 || two" = .error (.badRange (Text.quoted ">=  1.0 !=1.5 || two")) ∧
    two.alone = .error two.unread ∧
    ofText (String.ofList ((caret nines).text ++ [' '] ++ two.text)) = .error .overlongNumber := by
  have hblank : ∀ c ∈ [' '], Text.isBlank c = true := List.forall_mem_singleton.2 rfl
  have hnone : ∀ c ∈ ([] : List Char), Text.isBlank c = true := List.forall_mem_nil _
  have hboth : WritesTerms [atLeastOne, notOneFive] ">=  1.0 !=1.5".toList :=
    .cons atLeastOne (by decide) hblank (.last notOneFive)
  have hone : WritesRange [[atLeastOne, notOneFive]] ">=  1.0 !=1.5".toList :=
    .last hnone hnone hboth
  have htwo : WritesRange [[atLeastOne, notOneFive], [two]] ">=  1.0 !=1.5 || two".toList :=
    .cons hnone hblank hboth (.last hblank hnone (.last two))
  have hcaret : WritesRange [[caret nines, two]]
      ([] ++ ((caret nines).text ++ [' '] ++ two.text) ++ []) :=
    .last hnone hnone (.cons _ (by decide) hblank (.last two))
  rw [List.nil_append, List.append_nil] at hcaret
  have hfirst : atLeastOne.reading = .ok (some ⟨[.atLeast (.ofRelease [1, 0])], none⟩) := rfl
  have hsecond : notOneFive.reading = .ok (some ⟨[.except (.ofRelease [1, 5])], none⟩) := rfl
  have hunread : two.alone = .error two.unread := SpacedTerm.alone_eq _
  have halone : ∀ u ∈ [atLeastOne, notOneFive], ∃ range, u.alone = .ok range :=
    List.forall_mem_cons.2 ⟨⟨_, SpacedTerm.alone_eq_ok hfirst⟩,
      List.forall_mem_singleton.2 ⟨_, SpacedTerm.alone_eq_ok hsecond⟩⟩
  refine ⟨?_, ?_, hunread, ?_⟩
  · have hchecks : ∀ u ∈ [atLeastOne, notOneFive], checkAlone (.ofRelease [1, 2]) u = .ok true := by
      rw [List.forall_mem_cons, List.forall_mem_singleton, checkAlone_eq hfirst,
        checkAlone_eq hsecond]
      simp +decide [Alternative.accepts, Clause.accepts, Clause.isExactly, Version.ofRelease,
        Version.withoutLocal, Version.order, compareRelease]
    obtain ⟨hrefused, -, -, hcontains⟩ := ofText_of_writes hone
    rw [String.ofList_toList] at hrefused hcontains
    cases hrange : ofText ">=  1.0 !=1.5" with
    | error fault =>
      obtain ⟨ts, hts, t, ht, fault, hfault⟩ := hrefused.1 ⟨fault, hrange⟩
      obtain rfl := List.mem_singleton.1 hts
      obtain ⟨range, hok⟩ := halone t ht
      rw [hfault] at hok
      cases hok
    | ok range =>
      obtain ⟨accepted, haccepted, hiff⟩ := (hcontains range hrange (.ofRelease [1, 2])).2
        (List.forall_mem_singleton.2 fun t ht => ⟨true, hchecks t ht⟩)
      rw [hiff.2 ⟨_, List.mem_singleton_self _, hchecks⟩] at haccepted
      exact ⟨range, rfl, haccepted⟩
  · have hrefused := (ofText_of_writes htwo).2.1
    rw [String.ofList_toList] at hrefused
    refine (hrefused _).2 ⟨[[atLeastOne, notOneFive]], [two], [], rfl,
      List.forall_mem_singleton.2 halone, .clause ?_ List.mem_cons_self hunread⟩
    exact List.forall_mem_singleton.2 (SpacedTerm.isTurned_iff.2 ⟨_, rfl⟩)
  · refine ((ofText_of_writes hcaret).2.1 _).2 ⟨[], [caret nines, two], [], rfl,
      List.forall_mem_nil _, .number rfl (List.forall_mem_nil _) ?_ ?_⟩
    · exact alone_caret readable_nines not_raisable_nines
    · intro h
      cases h

end VersionRange

end ProfileCompiler
