import ProfileCompiler.Proofs.Files.Bases
import ProfileCompiler.Proofs.Files.Building

/-!
# What a search finds

A base with a path that is too long ends a search, also if nothing is there, and so does a
directory below a base.  `SearchPath.outcome_discover` says this, and what a search finds otherwise.
It leaves out a document if the first path to it is too long, even where a later one is not, since
the place counts as seen.

Which places a search comes to does not depend on what is in the files (`FileTree.Alike`), so a file
that cannot be read takes away its own document only.
-/

namespace ProfileCompiler

namespace SearchPath

open FileTree

variable {α : Type} {parsers : Parsers α} {fs : FileSystem} {q : Place} {s : SearchPath}

/-! ## All extensions -/

/-- The document at a place with the name by which it is found, if the path to it can be
followed. -/
def documentBy? (parsers : Parsers α) (fs : FileSystem) (bases : List Path) (q : Place) :
    Option (String × α) :=
  (firstPath? fs bases q).bind fun p =>
    (documentAt parsers fs.tree q).toOption.map fun document => (p.text, document)

lemma found?_eq (hproper : fs.tree.Proper) (hhas : fs.tree.has q = true) (bases : List Path) :
    found? parsers fs bases q =
      if (firstPath? fs bases q).any isOverlongPath then none
      else documentBy? parsers fs bases q := by
  unfold found? documentBy?
  cases hfirst : firstPath? fs bases q with
  | none => rfl
  | some p =>
    obtain ⟨base, -, hvia⟩ := List.exists_of_findSome?_eq_some hfirst
    rw [Option.bind_some, Option.bind_some, Option.any_some, named,
      read_of_pathVia? hproper hhas hvia]
    cases isOverlongPath p <;> rfl

/-- Nothing can be found on a search path since a base, or a directory below one, has a path that is
too long. -/
def Obstructed (fs : FileSystem) (s : SearchPath) : Prop := ∃ base ∈ s.bases, Blocked fs base

/-- The places that a search comes to, in order. -/
def placesOn (fs : FileSystem) (s : SearchPath) : List Place :=
  extensions.flatMap fun extension => reachedFirst fs extension [] s.bases

lemma outcome_discoverBy (hproper : fs.tree.Proper) (hparsed : fs.tree.Parsed parsers)
    (h : ¬ s.Obstructed fs) (wanted : List String) :
    (s.discoverBy parsers fs wanted).outcome =
      .ok ((wanted.flatMap fun extension => reachedFirst fs extension [] s.bases).filterMap
        (found? parsers fs s.bases)) := by
  induction wanted with
  | nil => rfl
  | cons extension rest ih =>
    have hopen : ∀ base ∈ s.bases, ¬ Blocked fs base := fun base hbase hblocked =>
      h ⟨base, hbase, hblocked⟩
    have hread : (readBelow parsers fs extension [] s.bases).outcome =
        .ok ((reachedFirst fs extension [] s.bases).filterMap (found? parsers fs s.bases)) :=
      outcome_readBelow hproper hparsed hopen [] [] fun _ _ _ => rfl
    rw [List.flatMap_cons, List.filterMap_append, discoverBy]
    simp only [Told.outcome_bind, hread, ih]
    rfl

lemma outcome_discover_of_obstructed (hproper : fs.tree.Proper)
    (hparsed : fs.tree.Parsed parsers) (h : s.Obstructed fs) :
    (s.discover parsers fs).outcome = .error (.unreadable .overlongPath) := by
  unfold discover extensions discoverBy
  rw [Told.outcome_bind, outcome_readBelow_of_blocked hproper hparsed h]
  rfl

lemma mem_placesOn_iff : q ∈ s.placesOn fs ↔
    fs.tree.has q = true ∧ (∃ extension ∈ extensions, hasExtension extension q = true) ∧
      s.bases.any (reaches fs q) = true := by
  unfold placesOn
  simp only [List.mem_flatMap, mem_reachedFirst_iff, List.any_nil, true_and]
  constructor
  · rintro ⟨extension, hmem, ⟨hhas, hextension⟩, hany⟩
    exact ⟨hhas, ⟨extension, hmem, hextension⟩, hany⟩
  · rintro ⟨hhas, ⟨extension, hmem, hextension⟩, hany⟩
    exact ⟨extension, hmem, ⟨hhas, hextension⟩, hany⟩

/-- A name has one of the extensions at most. -/
lemma not_json_of_yaml (h : hasExtension "yaml" q = true) : hasExtension "json" q = false := by
  rw [← Bool.not_eq_true]
  intro hjson
  have hsuffix := List.suffix_of_suffix_length_le (List.isSuffixOf_iff_suffix.1 h)
    (List.isSuffixOf_iff_suffix.1 hjson) (by decide)
  revert hsuffix
  decide

/-- A place comes before another one in a search: it has the extension that is looked for first, or
both have the same extension and it is found before the other. -/
def Precedes (fs : FileSystem) (s : SearchPath) (q r : Place) : Prop :=
  (hasExtension "yaml" q = true ∧ hasExtension "json" r = true) ∨
    (∃ extension ∈ extensions, hasExtension extension q = true ∧ hasExtension extension r = true) ∧
      FoundBefore fs s.bases q r

lemma placesOn_eq : s.placesOn fs =
    reachedFirst fs "yaml" [] s.bases ++ reachedFirst fs "json" [] s.bases := by
  unfold placesOn extensions
  simp

lemma nodup_placesOn (h : fs.tree.Distinct) : (s.placesOn fs).Nodup := by
  rw [placesOn_eq, List.nodup_append]
  refine ⟨nodup_reachedFirst h, nodup_reachedFirst h, ?_⟩
  rintro q hq r hr rfl
  have hyaml := (mem_reachedFirst_iff.1 hq).1.2
  have hjson := (mem_reachedFirst_iff.1 hr).1.2
  rw [not_json_of_yaml hyaml] at hjson
  cases hjson

lemma pairwise_placesOn : (s.placesOn fs).Pairwise (s.Precedes fs) := by
  have hsame : ∀ extension ∈ extensions,
      (reachedFirst fs extension [] s.bases).Pairwise (s.Precedes fs) := by
    intro extension hmem
    refine (pairwise_reachedFirst fs extension [] s.bases).imp_of_mem ?_
    intro q r hq hr hfound
    exact .inr ⟨⟨extension, hmem, (mem_reachedFirst_iff.1 hq).1.2,
      (mem_reachedFirst_iff.1 hr).1.2⟩, hfound⟩
  rw [placesOn_eq, List.pairwise_append]
  refine ⟨hsame "yaml" (by decide), hsame "json" (by decide), fun q hq r hr => ?_⟩
  exact .inl ⟨(mem_reachedFirst_iff.1 hq).1.2, (mem_reachedFirst_iff.1 hr).1.2⟩

/-! ## One file replaced -/

section Replaced

variable {fs' : FileSystem}

lemma directory?_of_alike (h : FileSystem.Alike fs fs') (base : Path) :
    fs'.directory? base = fs.directory? base := by
  unfold FileSystem.directory?
  simp only [h.locate, h.tree.isDirectoryAt]

lemma pathVia?_of_alike (h : FileSystem.Alike fs fs') (base : Path) (q : Place) :
    pathVia? fs' base q = pathVia? fs base q := by
  unfold pathVia?
  rw [directory?_of_alike h]

lemma placesBelow_of_alike (h : FileSystem.Alike fs fs') (extension : String) (base : Path) :
    placesBelow fs' extension base = placesBelow fs extension base := by
  unfold placesBelow
  simp only [directory?_of_alike h, h.tree.under]

lemma reachedFirst_of_alike (h : FileSystem.Alike fs fs') (extension : String)
    (earlier bases : List Path) :
    reachedFirst fs' extension earlier bases = reachedFirst fs extension earlier bases := by
  induction bases generalizing earlier with
  | nil => rfl
  | cons base rest ih =>
    have hreaches : ∀ q, reaches fs' q = reaches fs q := fun q =>
      funext fun base => congrArg Option.isSome (pathVia?_of_alike h base q)
    simp only [reachedFirst, reachedAt, placesBelow_of_alike h, hreaches, ih]

lemma firstPath?_of_alike (h : FileSystem.Alike fs fs') (bases : List Path) (q : Place) :
    firstPath? fs' bases q = firstPath? fs bases q := by
  unfold firstPath?
  simp only [pathVia?_of_alike h]

lemma blocked_of_alike (h : FileSystem.Alike fs fs') (base : Path)
    (hblocked : Blocked fs' base) : Blocked fs base := by
  cases hblocked with
  | path hlocate => exact .path ((h.locate base).symm.trans hlocate)
  | below hd hne hdirectory hlong =>
    rw [directory?_of_alike h] at hd
    rw [h.tree.isDirectoryAt] at hdirectory
    exact .below hd hne hdirectory hlong

/-- Putting an entry at a place changes what is read there and nowhere else. -/
lemma documentAt_put (entry : FileEntry) (r : Place) :
    documentAt parsers (fs.put q entry).tree r =
      if r = q then entryDocument parsers (suffixAt q) entry
      else documentAt parsers fs.tree r := by
  unfold documentAt FileSystem.put
  by_cases hr : r = q
  · rw [if_pos hr, hr, Table.get?_put_self]
  · rw [if_neg hr, Table.get?_put_of_ne (by simpa using fun heq => hr (Eq.symm heq))]

/-- A file that cannot be read in the place of another one takes away the document there and no
other. -/
lemma documentBy?_put {entry : FileEntry} {fault : ReadFault}
    (h : FileSystem.Alike fs (fs.put q entry))
    (hfault : entryDocument parsers (suffixAt q) entry = .error fault) (bases : List Path)
    (r : Place) :
    documentBy? parsers (fs.put q entry) bases r =
      if r = q then none else documentBy? parsers fs bases r := by
  unfold documentBy?
  rw [firstPath?_of_alike h, documentAt_put]
  by_cases hr : r = q
  · rw [if_pos hr, if_pos hr, hr, hfault]
    cases firstPath? fs bases q <;> rfl
  · rw [if_neg hr, if_neg hr]

lemma parsed_put {entry : FileEntry} (hparsed : fs.tree.Parsed parsers)
    (hentry : ∀ fault, entryDocument parsers (suffixAt q) entry = .error fault →
      fault.isPassedOver = true) : (fs.put q entry).tree.Parsed parsers := by
  intro r fault hfault
  rw [documentAt_put] at hfault
  split at hfault
  · exact hentry fault hfault
  · exact hparsed r fault hfault

end Replaced

/-! ## The search as a whole -/

/-- What a search finds: a place with one of the extensions and a document in it, below a base, such
that the path to it by the first such base is not too long. -/
structure IsFound (parsers : Parsers α) (fs : FileSystem) (s : SearchPath) (q : Place) :
    Prop where
  extension : ∃ extension ∈ extensions, hasExtension extension q = true
  document : ∃ v, documentAt parsers fs.tree q = .ok v
  path : ∃ p, firstPath? fs s.bases q = some p ∧ isOverlongPath p = false

lemma isSome_found?_iff (hproper : fs.tree.Proper) (hhas : fs.tree.has q = true)
    (bases : List Path) :
    (found? parsers fs bases q).isSome = true ↔ (∃ v, documentAt parsers fs.tree q = .ok v) ∧
      ∃ p, firstPath? fs bases q = some p ∧ isOverlongPath p = false := by
  rw [found?_eq hproper hhas]
  unfold documentBy?
  cases firstPath? fs bases q with
  | none => simp
  | some p =>
    cases hlong : isOverlongPath p <;> cases documentAt parsers fs.tree q <;>
      simp [hlong, Except.toOption]

/-- The places with documents that a search finds, in order. -/
def foundOn (parsers : Parsers α) (fs : FileSystem) (s : SearchPath) : List Place :=
  (s.placesOn fs).filter fun q => (found? parsers fs s.bases q).isSome

lemma mem_foundOn_iff (hproper : fs.tree.Proper) :
    q ∈ s.foundOn parsers fs ↔ s.IsFound parsers fs q := by
  unfold foundOn
  rw [List.mem_filter]
  constructor
  · rintro ⟨hmem, hsome⟩
    obtain ⟨hhas, hextension, -⟩ := mem_placesOn_iff.1 hmem
    obtain ⟨hdocument, hpath⟩ := (isSome_found?_iff hproper hhas _).1 hsome
    exact ⟨hextension, hdocument, hpath⟩
  · rintro ⟨hextension, ⟨v, hv⟩, ⟨p, hp, hlong⟩⟩
    have hhas : fs.tree.has q = true := has_of_documentAt hv
    have hany : s.bases.any (reaches fs q) = true := by
      obtain ⟨base, hbase, hvia⟩ := List.exists_of_findSome?_eq_some hp
      exact List.any_eq_true.2 ⟨base, hbase, by rw [reaches, hvia]; rfl⟩
    exact ⟨mem_placesOn_iff.2 ⟨hhas, hextension, hany⟩,
      (isSome_found?_iff hproper hhas _).2 ⟨⟨v, hv⟩, ⟨p, hp, hlong⟩⟩⟩

lemma outcome_discover_of_not_obstructed (hproper : fs.tree.Proper)
    (hparsed : fs.tree.Parsed parsers) (h : ¬ s.Obstructed fs) :
    (s.discover parsers fs).outcome =
      .ok ((s.foundOn parsers fs).filterMap (documentBy? parsers fs s.bases)) := by
  unfold discover foundOn
  rw [outcome_discoverBy hproper hparsed h, List.filterMap_filter]
  refine congrArg Except.ok (List.filterMap_congr fun q hq => ?_)
  rw [found?_eq hproper (mem_placesOn_iff.1 hq).1]
  cases (firstPath? fs s.bases q).any isOverlongPath with
  | true => rfl
  | false => cases documentBy? parsers fs s.bases q <;> rfl

/-- A file that cannot be read in the place of another one takes away the document there. -/
lemma outcome_discover_put {entry : FileEntry} {fault : ReadFault} (hproper : fs.tree.Proper)
    (hparsed : fs.tree.Parsed parsers) (hopen : ¬ s.Obstructed fs) (hhas : fs.tree.has q = true)
    (hfile : fs.tree.isDirectoryAt q = false) (hentry : entry ≠ .directory)
    (hfault : entryDocument parsers (suffixAt q) entry = .error fault)
    (hpassed : fault.isPassedOver = true) :
    (s.discover parsers (fs.put q entry)).outcome =
      .ok (((s.foundOn parsers fs).filter (· ≠ q)).filterMap
        (documentBy? parsers fs s.bases)) := by
  have halike : FileSystem.Alike fs (fs.put q entry) := FileSystem.alike_put hhas hfile hentry
  have hproper' : (fs.put q entry).tree.Proper :=
    halike.tree.proper (Table.distinct_put hproper.distinct q entry) hproper
  have hparsed' : (fs.put q entry).tree.Parsed parsers := parsed_put hparsed fun other hother => by
    rw [← Except.error.inj (hfault.symm.trans hother)]
    exact hpassed
  have hopen' : ¬ s.Obstructed (fs.put q entry) := fun ⟨base, hbase, hblocked⟩ =>
    hopen ⟨base, hbase, blocked_of_alike halike base hblocked⟩
  have hplaces : s.placesOn (fs.put q entry) = s.placesOn fs := by
    unfold placesOn
    simp only [reachedFirst_of_alike halike]
  rw [outcome_discover_of_not_obstructed hproper' hparsed' hopen']
  unfold foundOn
  rw [hplaces, List.filterMap_filter, List.filterMap_filter, List.filterMap_filter]
  refine congrArg Except.ok (List.filterMap_congr fun r hr => ?_)
  have hr' : fs.tree.has r = true := (mem_placesOn_iff.1 hr).1
  rw [found?_eq hproper' ((halike.tree.has r).trans hr'), found?_eq hproper hr',
    firstPath?_of_alike halike, documentBy?_put halike hfault]
  by_cases hrq : r = q <;> simp [hrq]

/-- A search ends in a fault if a base, or a directory below one, has a path that is too long.
Otherwise it finds what can be read by the first path to it, each place once and in order, and a
file that cannot be read takes away its own document only. -/
theorem outcome_discover (hproper : fs.tree.Proper) (hparsed : fs.tree.Parsed parsers)
    (s : SearchPath) :
    (s.Obstructed fs → (s.discover parsers fs).outcome = .error (.unreadable .overlongPath)) ∧
      (¬ s.Obstructed fs → ∃ places : List Place,
        (s.discover parsers fs).outcome =
          .ok (places.filterMap (documentBy? parsers fs s.bases)) ∧
        places.Nodup ∧ (∀ q, q ∈ places ↔ s.IsFound parsers fs q) ∧
        places.Pairwise (s.Precedes fs) ∧
        ∀ q entry fault, fs.tree.has q = true → fs.tree.isDirectoryAt q = false →
          entry ≠ .directory → entryDocument parsers (suffixAt q) entry = .error fault →
          fault.isPassedOver = true →
          (s.discover parsers (fs.put q entry)).outcome =
            .ok ((places.filter (· ≠ q)).filterMap (documentBy? parsers fs s.bases))) := by
  refine ⟨outcome_discover_of_obstructed hproper hparsed, fun hopen => ?_⟩
  refine ⟨s.foundOn parsers fs, outcome_discover_of_not_obstructed hproper hparsed hopen,
    (nodup_placesOn hproper.distinct).filter _, fun q => mem_foundOn_iff hproper,
    pairwise_placesOn.filter _, ?_⟩
  intro q entry fault hhas hfile hentry hfault hpassed
  exact outcome_discover_put hproper hparsed hopen hhas hfile hentry hfault hpassed

/-- The place of the one document in `oneDocument`. -/
def documentPlace : Place := ["m", "p", "a.yaml"]

/-- A file system with one document, in which a directory above it is worked in. -/
def oneDocument : FileSystem := ⟨addFile [] documentPlace "{}".toUTF8, ["m"]⟩

lemma mem_oneDocument {q : Place} (h : oneDocument.tree.has q = true) :
    q = [] ∨ q = ["m"] ∨ q = ["m", "p"] ∨ q = documentPlace := by
  have hkeys : oneDocument.tree.keys = [[], ["m"], ["m", "p"], documentPlace] := rfl
  simpa [hkeys] using mem_keys_iff.2 h

lemma proper_oneDocument : oneDocument.tree.Proper := by
  have hplain : ∀ name ∈ ["m", "p"] ++ ["a.yaml"], IsPlain name := by
    simp only [List.cons_append, List.nil_append, List.forall_mem_cons]
    exact ⟨⟨by decide, by decide, by decide⟩, ⟨by decide, by decide, by decide⟩,
      ⟨by decide, by decide, by decide⟩, List.forall_mem_nil _⟩
  exact proper_addFile proper_nil hplain (fun _ _ h => by cases h) rfl _

/-- There is no other document. -/
lemma documentAt_oneDocument {q : Place} {v : Value}
    (h : documentAt Content.parsers oneDocument.tree q = .ok v) : q = documentPlace := by
  obtain rfl | rfl | rfl | rfl := mem_oneDocument (has_of_documentAt h)
  · cases h
  · cases h
  · cases h
  · rfl

lemma parsed_oneDocument : oneDocument.tree.Parsed Content.parsers := by
  intro q fault h
  by_cases hhas : oneDocument.tree.has q = true
  · obtain rfl | rfl | rfl | rfl := mem_oneDocument hhas
    · cases h
      rfl
    · cases h
      rfl
    · cases h
      rfl
    · have hread : documentAt Content.parsers oneDocument.tree documentPlace =
          .ok (.mapping []) := rfl
      cases hread.symm.trans h
  · unfold documentAt at h
    rw [Table.has, Option.not_isSome_iff_eq_none] at hhas
    rw [hhas] at h
    cases h
    rfl

/-- The document is found once, although a relative and an absolute root lead to it, and not if it
is sealed.  A root with a name that is too long ends the search, although there is no such root. -/
theorem outcome_discover_repeated :
    let here : Path := ⟨false, []⟩
    let m : Path := ⟨true, ["m"]⟩
    let long : Path := ⟨true, [String.ofList (List.replicate 256 'n')]⟩
    (SearchPath.discover Content.parsers oneDocument ⟨[here, m], ["p"]⟩).outcome =
        .ok [("p/a.yaml", .mapping [])] ∧
      (SearchPath.discover Content.parsers (oneDocument.put documentPlace .sealed)
          ⟨[here, m], ["p"]⟩).outcome = .ok [] ∧
      (SearchPath.discover Content.parsers oneDocument ⟨[long, m], ["p"]⟩).outcome =
        .error (.unreadable .overlongPath) := by
  intro here m long
  have hbases : ∀ base ∈ (⟨[here, m], ["p"]⟩ : SearchPath).bases,
      oneDocument.directory? base = some ["m", "p"] := by decide
  have hopen : ¬ Obstructed oneDocument ⟨[here, m], ["p"]⟩ := by
    rintro ⟨base, hbase, hblocked⟩
    have hdirectory := hbases base hbase
    cases hblocked with
    | path hlocate =>
      rw [FileSystem.directory?, hlocate] at hdirectory
      cases hdirectory
    | @below d names hd hne hbelow hlong =>
      obtain rfl : ["m", "p"] = d := Option.some.inj (hdirectory.symm.trans hd)
      obtain h | h | h | h := mem_oneDocument (has_of_isDirectoryAt hbelow)
      · cases h
      · cases h
      · simp [hne] at h
      · rw [h] at hbelow
        cases hbelow
  -- Both bases lead to the one document, so a list without repetitions has it once.
  obtain ⟨places, houtcome, hnodup, hmem, -, hreplaced⟩ :=
    (outcome_discover proper_oneDocument parsed_oneDocument ⟨[here, m], ["p"]⟩).2 hopen
  have hplaces : places = [documentPlace] := by
    rw [← List.perm_singleton]
    refine (List.perm_ext_iff_of_nodup hnodup (List.nodup_singleton _)).2 fun q => ?_
    rw [hmem, List.mem_singleton]
    constructor
    · rintro ⟨-, ⟨v, hv⟩, -⟩
      exact documentAt_oneDocument hv
    · rintro rfl
      exact ⟨⟨"yaml", by decide, by decide⟩, ⟨.mapping [], rfl⟩,
        ⟨⟨false, ["p", "a.yaml"]⟩, by decide, by decide⟩⟩
  subst hplaces
  refine ⟨houtcome.trans rfl, ?_, ?_⟩
  · exact (hreplaced documentPlace .sealed .sealed (by decide) (by decide) (by simp) rfl rfl).trans
      rfl
  · refine (outcome_discover proper_oneDocument parsed_oneDocument ⟨[long, m], ["p"]⟩).1 ?_
    have hnull : ∀ part ∈ [String.ofList (List.replicate 256 'n'), "p"],
        '\x00' ∉ part.toList := by
      rw [List.forall_mem_cons, String.toList_ofList, List.mem_replicate]
      decide
    exact ⟨_, List.mem_cons_self, .path (FileSystem.locate_of_isOverlong rfl hnull rfl
      (by decide +kernel))⟩

end SearchPath

end ProfileCompiler
