import ProfileCompiler.Proofs.Files.Candidates

/-!
# Bases in turn

A search goes through the bases of a search path in turn, once for each extension.  What it comes to
for an extension are the places below the bases, each at the first base that reaches it
(`SearchPath.reachedFirst`): no place twice, and in the order of the bases and of the names below
each of them (`SearchPath.nodup_reachedFirst`, `SearchPath.pairwise_reachedFirst`).  Its documents
are those that can be read there (`SearchPath.outcome_readBelow`).
-/

namespace ProfileCompiler

namespace SearchPath

open FileTree

variable {α : Type} {parsers : Parsers α} {fs : FileSystem} {base p : Path}
  {earlier bases rest : List Path} {q r : Place}
  {extension : String}

/-! ## The first base that reaches a place -/

/-- Whether a place is below the directory that a base leads to. -/
def reaches (fs : FileSystem) (q : Place) (base : Path) : Bool := (pathVia? fs base q).isSome

/-- The path to a place by the first base that reaches it. -/
def firstPath? (fs : FileSystem) (bases : List Path) (q : Place) : Option Path :=
  bases.findSome? fun base => pathVia? fs base q

/-- The number of bases before the first that reaches a place. -/
def turn (fs : FileSystem) (bases : List Path) (q : Place) : Nat := bases.findIdx (reaches fs q)

lemma firstPath?_of_first (hearlier : earlier.any (reaches fs q) = false)
    (h : pathVia? fs base q = some p) (rest : List Path) :
    firstPath? fs (earlier ++ base :: rest) q = some p := by
  have hnone : earlier.findSome? (fun base => pathVia? fs base q) = none := by
    rw [List.findSome?_eq_none_iff]
    intro b hb
    have hb := List.any_eq_false.1 hearlier b hb
    simpa [reaches] using hb
  unfold firstPath?
  rw [List.findSome?_append, hnone, Option.none_or, List.findSome?_cons, h]

lemma turn_append (hearlier : earlier.any (reaches fs q) = false) (rest : List Path) :
    turn fs (earlier ++ rest) q = turn fs rest q + earlier.length := by
  have hnot : ¬ earlier.findIdx (reaches fs q) < earlier.length := by
    rw [List.findIdx_lt_length, ← List.any_eq_true, hearlier]
    decide
  unfold turn
  rw [List.findIdx_append, if_neg hnot]

lemma turn_of_first (hearlier : earlier.any (reaches fs q) = false)
    (h : reaches fs q base = true) (rest : List Path) :
    turn fs (earlier ++ base :: rest) q = earlier.length := by
  rw [turn_append hearlier, turn, List.findIdx_cons, h]
  exact Nat.zero_add _

/-! ## Places in the order of the search -/

/-- The places with an extension below a base that none of the bases before reach. -/
def reachedAt (fs : FileSystem) (extension : String) (earlier : List Path) (base : Path) :
    List Place :=
  (placesBelow fs extension base).filter fun q => !earlier.any (reaches fs q)

/-- The places with an extension below bases, each at the first base that reaches it. -/
def reachedFirst (fs : FileSystem) (extension : String) (earlier : List Path) :
    List Path → List Place
  | [] => []
  | base :: rest =>
    reachedAt fs extension earlier base ++ reachedFirst fs extension (earlier ++ [base]) rest

lemma mem_reachedAt_iff : q ∈ reachedAt fs extension earlier base ↔
    (fs.tree.has q = true ∧ hasExtension extension q = true ∧ reaches fs q base = true) ∧
      earlier.any (reaches fs q) = false := by
  unfold reachedAt
  rw [List.mem_filter, mem_placesBelow_iff, Bool.not_eq_true']
  rfl

lemma mem_reachedFirst_iff : q ∈ reachedFirst fs extension earlier bases ↔
    (fs.tree.has q = true ∧ hasExtension extension q = true) ∧
      earlier.any (reaches fs q) = false ∧ bases.any (reaches fs q) = true := by
  induction bases generalizing earlier with
  | nil => simp [reachedFirst]
  | cons base rest ih =>
    rw [reachedFirst, List.mem_append, mem_reachedAt_iff, ih, List.any_append, List.any_cons,
      List.any_cons, List.any_nil]
    cases reaches fs q base <;> simp [and_assoc]

/-- A place is found at one base only. -/
lemma nodup_reachedFirst (h : fs.tree.Distinct) :
    (reachedFirst fs extension earlier bases).Nodup := by
  induction bases generalizing earlier with
  | nil => exact List.nodup_nil
  | cons base rest ih =>
    rw [reachedFirst, List.nodup_append]
    refine ⟨(nodup_placesBelow h extension base).filter _, ih, ?_⟩
    rintro q hq r hr rfl
    have hbase := (mem_reachedAt_iff.1 hq).1.2.2
    have hnot := (mem_reachedFirst_iff.1 hr).2.1
    simp [hbase] at hnot

/-- A place is found before another one: at an earlier base, or at the same base and named before
it. -/
def FoundBefore (fs : FileSystem) (bases : List Path) (q r : Place) : Prop :=
  turn fs bases q < turn fs bases r ∨
    turn fs bases q = turn fs bases r ∧ Path.before q r = true

lemma pairwise_reachedFirst (fs : FileSystem) (extension : String) (earlier bases : List Path) :
    (reachedFirst fs extension earlier bases).Pairwise (FoundBefore fs (earlier ++ bases)) := by
  induction bases generalizing earlier with
  | nil => exact List.Pairwise.nil
  | cons base rest ih =>
    have hturn : ∀ q ∈ reachedAt fs extension earlier base,
        turn fs (earlier ++ base :: rest) q = earlier.length := by
      intro q hq
      obtain ⟨⟨-, -, hbase⟩, hearlier⟩ := mem_reachedAt_iff.1 hq
      exact turn_of_first hearlier hbase rest
    rw [reachedFirst, List.pairwise_append]
    refine ⟨?_, ?_, ?_⟩
    · refine ((pairwise_placesBelow fs extension base).filter _).imp_of_mem ?_
      intro q r hq hr hbefore
      exact .inr ⟨(hturn q hq).trans (hturn r hr).symm, hbefore⟩
    · rw [List.append_cons]
      exact ih (earlier ++ [base])
    · intro q hq r hr
      have hlater := turn_append (mem_reachedFirst_iff.1 hr).2.1 rest
      rw [← List.append_cons, List.length_append, List.length_singleton] at hlater
      left
      rw [hturn q hq, hlater]
      omega

/-! ## Reading what is found -/

/-- The places with an extension below a base that are not among those seen. -/
def fresh (fs : FileSystem) (extension : String) (seen : List Place) (base : Path) : List Place :=
  (placesBelow fs extension base).filter fun q => !seen.contains q

/-- The candidates at fresh places are those that are left of the candidates below a base. -/
lemma withoutRepeats_placesBelow (hproper : fs.tree.Proper) (extension : String) (base : Path)
    (seen : List Place) :
    withoutRepeats fs seen ((placesBelow fs extension base).filterMap (pathVia? fs base)) =
      ((fresh fs extension seen base).filterMap (pathVia? fs base),
        seen ++ fresh fs extension seen base) := by
  refine withoutRepeats_filterMap hproper _ (nodup_placesBelow hproper.distinct extension base) ?_
    seen
  intro q hq
  obtain ⟨hhas, -, hvia⟩ := mem_placesBelow_iff.1 hq
  exact ⟨hhas, hvia⟩

/-- The documents at fresh places are read one after the other. -/
lemma outcome_readAll_fresh (hproper : fs.tree.Proper) (hparsed : fs.tree.Parsed parsers)
    (seen : List Place) :
    (readAll parsers fs extension
        ((fresh fs extension seen base).filterMap (pathVia? fs base))).outcome =
      .ok ((fresh fs extension seen base).filterMap fun q =>
        (pathVia? fs base q).bind (named parsers fs)) := by
  rw [outcome_readAll, List.filterMap_filterMap]
  intro p hp fault hfault
  obtain ⟨q, hq, hqp⟩ := List.mem_filterMap.1 hp
  obtain ⟨hhas, -, -⟩ := mem_placesBelow_iff.1 (List.mem_of_mem_filter hq)
  rw [read_of_pathVia? hproper hhas hqp] at hfault
  split at hfault
  · cases hfault
    rfl
  · exact hparsed q fault hfault

/-- Reading goes on from base to base.  At each of them the documents at fresh places are read. -/
lemma outcome_readBelow_cons (hproper : fs.tree.Proper) (hparsed : fs.tree.Parsed parsers)
    (h : ¬ Blocked fs base) (seen : List Place) :
    (readBelow parsers fs extension seen (base :: rest)).outcome =
      (readBelow parsers fs extension (seen ++ fresh fs extension seen base) rest).outcome >>=
        fun more => .ok ((fresh fs extension seen base).filterMap
          (fun q => (pathVia? fs base q).bind (named parsers fs)) ++ more) := by
  have hreadOn : ∀ found : List Path × List Place,
      (do
        let documents ← readAll parsers fs extension found.1
        let more ← readBelow parsers fs extension found.2 rest
        pure (documents ++ more) : Told (List (String × α))).outcome =
      (readAll parsers fs extension found.1).outcome >>= fun documents =>
        (readBelow parsers fs extension found.2 rest).outcome >>= fun more =>
          .ok (documents ++ more) := by
    intro found
    simp only [Told.outcome_bind]
    rfl
  rw [readBelow, candidatesBelow_of_not_blocked h, Told.outcome_bind]
  refine (hreadOn (withoutRepeats fs seen _)).trans ?_
  rw [withoutRepeats_placesBelow hproper, outcome_readAll_fresh hproper hparsed]
  rfl

/-- A base that is blocked ends the reading. -/
lemma outcome_readBelow_of_blocked (hproper : fs.tree.Proper) (hparsed : fs.tree.Parsed parsers)
    (h : ∃ base ∈ bases, Blocked fs base) (seen : List Place) :
    (readBelow parsers fs extension seen bases).outcome = .error (.unreadable .overlongPath) := by
  induction bases generalizing seen with
  | nil => simp at h
  | cons base rest ih =>
    by_cases hbase : Blocked fs base
    · rw [readBelow, candidatesBelow_of_blocked hbase, Told.outcome_bind]
      rfl
    · have hrest : ∃ base ∈ rest, Blocked fs base := by
        simpa [hbase] using h
      rw [outcome_readBelow_cons hproper hparsed hbase, ih hrest]
      rfl

/-- The document at a place with the name by which it is found. -/
def found? (parsers : Parsers α) (fs : FileSystem) (bases : List Path) (q : Place) :
    Option (String × α) :=
  (firstPath? fs bases q).bind (named parsers fs)

/-- The documents of an extension below bases that are not blocked are those found there. -/
lemma outcome_readBelow (hproper : fs.tree.Proper) (hparsed : fs.tree.Parsed parsers)
    (hopen : ∀ base ∈ bases, ¬ Blocked fs base) (earlier : List Path) (seen : List Place)
    (hseen : ∀ q, fs.tree.has q = true → hasExtension extension q = true →
      seen.contains q = earlier.any (reaches fs q)) :
    (readBelow parsers fs extension seen bases).outcome =
      .ok ((reachedFirst fs extension earlier bases).filterMap
        (found? parsers fs (earlier ++ bases))) := by
  induction bases generalizing earlier seen with
  | nil => rfl
  | cons base rest ih =>
    obtain ⟨hbase, hrest⟩ := List.forall_mem_cons.1 hopen
    have hfresh : fresh fs extension seen base = reachedAt fs extension earlier base := by
      refine List.filter_congr fun q hq => ?_
      obtain ⟨hhas, hextension, -⟩ := mem_placesBelow_iff.1 hq
      rw [hseen q hhas hextension]
    -- What has been seen then is what the bases so far reach.
    have hmore : ∀ q, fs.tree.has q = true → hasExtension extension q = true →
        (seen ++ fresh fs extension seen base).contains q =
          (earlier ++ [base]).any (reaches fs q) := by
      intro q hhas hextension
      rw [List.any_append, List.any_cons, List.any_nil, Bool.or_false, Bool.eq_iff_iff,
        List.contains_iff_mem, List.mem_append, ← List.contains_iff_mem,
        hseen q hhas hextension, hfresh, mem_reachedAt_iff]
      cases earlier.any (reaches fs q) <;> simp [hhas, hextension]
    have hfound : (fresh fs extension seen base).filterMap
        (fun q => (pathVia? fs base q).bind (named parsers fs)) =
          (fresh fs extension seen base).filterMap
            (found? parsers fs (earlier ++ base :: rest)) := by
      refine List.filterMap_congr fun q hq => ?_
      rw [hfresh] at hq
      obtain ⟨⟨-, -, hreaches⟩, hearlier⟩ := mem_reachedAt_iff.1 hq
      obtain ⟨p, hp⟩ := Option.isSome_iff_exists.1 hreaches
      rw [found?, firstPath?_of_first hearlier hp, hp]
    rw [outcome_readBelow_cons hproper hparsed hbase, ih hrest _ _ hmore, hfound, hfresh,
      reachedFirst, List.filterMap_append, ← List.append_cons]
    rfl

end SearchPath

end ProfileCompiler
