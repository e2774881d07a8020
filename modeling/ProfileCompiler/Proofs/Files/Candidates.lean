import ProfileCompiler.Files.Discovery
import ProfileCompiler.Proofs.Files.System

/-!
# Candidates below a path

A path to a directory reaches the places below it, each by one path (`SearchPath.pathVia?`).  Unless
the path or one to a directory below is too long (`SearchPath.Blocked`), the candidates of an
extension below it are the paths to these places, in their order
(`SearchPath.candidatesBelow_of_not_blocked`).

Such a path resolves to the place it leads to, and what is read at it is the document there
(`SearchPath.read_of_pathVia?`).  So candidates can be told apart by their places, and those at
places seen before are left out (`SearchPath.withoutRepeats_filterMap`).
-/

namespace ProfileCompiler

namespace FileSystem

/-- The directory that a path leads to. -/
def directory? (fs : FileSystem) (p : Path) : Option Place :=
  match fs.locate p with
  | .ok place => if fs.tree.isDirectoryAt place then some place else none
  | .error _ => none

lemma directory?_eq_some_iff {fs : FileSystem} {p : Path} {d : Place} :
    fs.directory? p = some d ↔ fs.locate p = .ok d ∧ fs.tree.isDirectoryAt d = true := by
  unfold directory?
  cases fs.locate p with
  | error fault => simp
  | ok place =>
    show (if fs.tree.isDirectoryAt place = true then some place else none) = some d ↔ _
    rw [Option.ite_none_right_eq_some, Option.some.injEq, Except.ok.injEq]
    constructor
    · rintro ⟨hd, rfl⟩
      exact ⟨rfl, hd⟩
    · rintro ⟨rfl, hd⟩
      exact ⟨hd, rfl⟩

end FileSystem

namespace SearchPath

open FileTree FileSystem

variable {α : Type} {parsers : Parsers α} {fs : FileSystem} {base p : Path} {d q : Place}
  {extension : String}

/-! ## Places below a path -/

/-- The path to a place below the directory that a path leads to. -/
def pathVia? (fs : FileSystem) (base : Path) (q : Place) : Option Path :=
  (fs.directory? base).bind fun d => (below? d q).map (along base)

lemma pathVia?_eq_some_iff : pathVia? fs base q = some p ↔
    ∃ d names, fs.directory? base = some d ∧ names ≠ [] ∧ q = d ++ names ∧
      p = along base names := by
  unfold pathVia?
  simp only [Option.bind_eq_some_iff, Option.map_eq_some_iff, below?_eq_some_iff]
  constructor
  · rintro ⟨d, hd, names, ⟨hne, hq⟩, hp⟩
    exact ⟨d, names, hd, hne, hq, hp.symm⟩
  · rintro ⟨d, names, hd, hne, hq, hp⟩
    exact ⟨d, hd, names, ⟨hne, hq⟩, hp.symm⟩

lemma pathVia?_append (h : fs.directory? base = some d) {names : List String} (hne : names ≠ []) :
    pathVia? fs base (d ++ names) = some (along base names) :=
  pathVia?_eq_some_iff.2 ⟨d, names, h, hne, rfl, rfl⟩

lemma hasExtension_append (d : Place) {names : List String} (hne : names ≠ []) :
    hasExtension extension (d ++ names) = hasExtension extension names := by
  unfold hasExtension
  rw [List.getLast?_append_of_ne_nil _ hne]

/-- The places with an extension below the directory that a path leads to. -/
def placesBelow (fs : FileSystem) (extension : String) (base : Path) : List Place :=
  match fs.directory? base with
  | none => []
  | some d => ((fs.tree.under d).filter (hasExtension extension)).map (d ++ ·)

lemma mem_placesBelow_iff : q ∈ placesBelow fs extension base ↔
    fs.tree.has q = true ∧ hasExtension extension q = true ∧
      (pathVia? fs base q).isSome = true := by
  unfold placesBelow
  cases hd : fs.directory? base with
  | none => simp [pathVia?, hd]
  | some d =>
    simp only [List.mem_map, List.mem_filter, mem_under_iff]
    constructor
    · rintro ⟨names, ⟨⟨hne, hhas⟩, hextension⟩, rfl⟩
      rw [hasExtension_append d hne, pathVia?_append hd hne]
      exact ⟨hhas, hextension, rfl⟩
    · rintro ⟨hhas, hextension, hvia⟩
      obtain ⟨p, hp⟩ := Option.isSome_iff_exists.1 hvia
      obtain ⟨d', names, hd', hne, rfl, -⟩ := pathVia?_eq_some_iff.1 hp
      obtain rfl : d = d' := Option.some.inj (hd.symm.trans hd')
      rw [hasExtension_append d hne] at hextension
      exact ⟨names, ⟨⟨hne, hhas⟩, hextension⟩, rfl⟩

lemma nodup_placesBelow (h : fs.tree.Distinct) (extension : String) (base : Path) :
    (placesBelow fs extension base).Nodup := by
  unfold placesBelow
  cases fs.directory? base with
  | none => exact List.nodup_nil
  | some d =>
    exact ((nodup_under h d).filter _).map (List.append_right_injective d)

lemma pairwise_placesBelow (fs : FileSystem) (extension : String) (base : Path) :
    (placesBelow fs extension base).Pairwise fun q r => Path.before q r = true := by
  unfold placesBelow
  cases fs.directory? base with
  | none => exact List.Pairwise.nil
  | some d =>
    rw [List.pairwise_map]
    exact ((pairwise_under fs.tree d).filter _).imp (Path.before_append_left d)

/-! ## Paths that are too long -/

/-- A path or one to a directory below it is too long to be followed. -/
inductive Blocked (fs : FileSystem) (base : Path) : Prop where
  | path : fs.locate base = .error .overlongPath → Blocked fs base
  | below {d : Place} {names : List String} : fs.directory? base = some d → names ≠ [] →
      fs.tree.isDirectoryAt (d ++ names) = true → isOverlongPath (along base names) = true →
      Blocked fs base

lemma candidatesBelow_of_directory? (h : fs.directory? base = some d) :
    candidatesBelow fs extension base =
      if (fs.tree.under d).any fun names =>
          fs.tree.isDirectoryAt (d ++ names) && isOverlongPath (along base names) then
        .error .overlongPath
      else .ok ((placesBelow fs extension base).filterMap (pathVia? fs base)) := by
  obtain ⟨hlocate, hd⟩ := directory?_eq_some_iff.1 h
  have hplaces : (placesBelow fs extension base).filterMap (pathVia? fs base) =
      ((fs.tree.under d).filter (hasExtension extension)).map (along base) := by
    unfold placesBelow
    rw [h, List.filterMap_map, ← List.filterMap_eq_map]
    refine List.filterMap_congr fun names hnames => ?_
    exact pathVia?_append h (mem_under_iff.1 (List.mem_of_mem_filter hnames)).1
  rw [hplaces]
  unfold candidatesBelow FileSystem.isDirectory
  simp only [hlocate, hd, bind, Except.bind, if_true]

lemma candidatesBelow_of_no_directory (h : fs.directory? base = none)
    (hpath : fs.locate base ≠ .error .overlongPath) :
    candidatesBelow fs extension base = .ok [] := by
  unfold directory? at h
  unfold candidatesBelow FileSystem.isDirectory
  cases hlocate : fs.locate base with
  | error fault =>
    rw [hlocate] at hpath
    cases fault <;> first | rfl | exact absurd rfl hpath
  | ok place =>
    simp only [hlocate, ite_eq_right_iff, reduceCtorEq, imp_false, Bool.not_eq_true] at h
    simp only [h, bind, Except.bind, Bool.false_eq_true, if_false]

/-- No candidates can be listed below a path that is blocked. -/
lemma candidatesBelow_of_blocked (h : Blocked fs base) :
    candidatesBelow fs extension base = .error .overlongPath := by
  cases h with
  | path hlocate =>
    unfold candidatesBelow FileSystem.isDirectory
    rw [hlocate]
    rfl
  | @below d names hd hne hdirectory hlong =>
    rw [candidatesBelow_of_directory? hd, if_pos]
    rw [List.any_eq_true]
    refine ⟨names, mem_under_iff.2 ⟨hne, has_of_isDirectoryAt hdirectory⟩, ?_⟩
    rw [hdirectory, hlong]
    rfl

/-- The candidates below a path that is not blocked are the paths to the places below it. -/
lemma candidatesBelow_of_not_blocked (h : ¬ Blocked fs base) :
    candidatesBelow fs extension base =
      .ok ((placesBelow fs extension base).filterMap (pathVia? fs base)) := by
  cases hd : fs.directory? base with
  | none =>
    rw [candidatesBelow_of_no_directory hd fun hpath => h (.path hpath), placesBelow, hd]
    rfl
  | some d =>
    rw [candidatesBelow_of_directory? hd, if_neg]
    simp only [List.any_eq_true, Bool.and_eq_true, not_exists, not_and]
    intro names hnames hdirectory hlong
    exact h (.below hd (mem_under_iff.1 hnames).1 hdirectory hlong)

/-! ## What candidates lead to -/

lemma parts_along (base : Path) (names : List String) :
    (along base names).parts = base.parts ++ names := rfl

lemma start_along (fs : FileSystem) (base : Path) (names : List String) :
    fs.start (along base names) = fs.start base := rfl

/-- A path to a place resolves to it. -/
lemma resolved_of_pathVia? (hproper : fs.tree.Proper) (hhas : fs.tree.has q = true)
    (h : pathVia? fs base q = some p) : fs.resolved p = q := by
  obtain ⟨d, names, hd, -, rfl, rfl⟩ := pathVia?_eq_some_iff.1 h
  have hbase : resolve (fs.start base) base.parts = d :=
    resolved_of_locate (directory?_eq_some_iff.1 hd).1
  have hplain : ∀ name ∈ names, name ≠ ".." := fun name hname =>
    (hproper.plain hhas name (List.mem_append_right _ hname)).notDots
  rw [resolved, parts_along, start_along, resolve_append, hbase, resolve_of_plain hplain]

/-- What is read at a path to a place is the document there, unless the path is too long. -/
lemma read_of_pathVia? (hproper : fs.tree.Proper) (hhas : fs.tree.has q = true)
    (h : pathVia? fs base q = some p) :
    fs.read parsers p =
      if isOverlongPath p then .error .overlongPath else documentAt parsers fs.tree q := by
  obtain ⟨d, names, hd, hne, rfl, rfl⟩ := pathVia?_eq_some_iff.1 h
  obtain ⟨hnull, -, hfollow⟩ := locate_eq_ok_iff.1 (directory?_eq_some_iff.1 hd).1
  have hnames : ∀ name ∈ (along base names).parts, '\x00' ∉ name.toList := by
    rw [parts_along]
    intro name hname
    obtain hname | hname := List.mem_append.1 hname
    · exact hnull name hname
    · exact (hproper.plain hhas name (List.mem_append_right _ hname)).notNull
  cases hlong : isOverlongPath (along base names) with
  | true =>
    have hlocate : fs.locate (along base names) = .error .overlongPath := by
      unfold locate
      rw [if_neg, hlong]
      · rfl
      · simpa using hnames
    rw [FileSystem.read, hlocate]
    rfl
  | false =>
    refine read_of_locate (locate_eq_ok_iff.2 ⟨hnames, hlong, ?_⟩) ?_
    · rw [parts_along, start_along, follow_append hfollow]
      exact follow_of_has hproper hhas
    · unfold suffixAt Path.suffix
      rw [parts_along, List.getLast?_append_of_ne_nil _ hne, List.getLast?_append_of_ne_nil _ hne]

/-! ## Candidates in turn -/

/-- Of the candidates below a path those count that are at places not seen before. -/
lemma withoutRepeats_filterMap (hproper : fs.tree.Proper) (places : List Place)
    (hnodup : places.Nodup)
    (hvia : ∀ q ∈ places, fs.tree.has q = true ∧ (pathVia? fs base q).isSome = true)
    (seen : List Place) :
    withoutRepeats fs seen (places.filterMap (pathVia? fs base)) =
      ((places.filter fun q => !seen.contains q).filterMap (pathVia? fs base),
        seen ++ places.filter fun q => !seen.contains q) := by
  induction places generalizing seen with
  | nil => rw [List.filter_nil, List.append_nil]; rfl
  | cons q places ih =>
    obtain ⟨hq, hnodup⟩ := List.nodup_cons.1 hnodup
    obtain ⟨⟨hhas, hsome⟩, hvia⟩ := List.forall_mem_cons.1 hvia
    obtain ⟨p, hp⟩ := Option.isSome_iff_exists.1 hsome
    rw [List.filterMap_cons_some hp, withoutRepeats, resolved_of_pathVia? hproper hhas hp]
    cases hseen : seen.contains q with
    | true =>
      rw [if_pos rfl, List.filter_cons_of_neg (by rw [hseen]; decide)]
      exact ih hnodup hvia seen
    | false =>
      -- The place itself does not come again, so the places after it are filtered as before.
      have hrest : places.filter (fun r => !(seen ++ [q]).contains r) =
          places.filter fun r => !seen.contains r := by
        refine List.filter_congr fun r hr => ?_
        have hne : r ≠ q := fun heq => hq (heq ▸ hr)
        simp [hne]
      rw [if_neg Bool.false_ne_true, List.filter_cons_of_pos (by rw [hseen]; rfl),
        List.filterMap_cons_some hp, ih hnodup hvia, hrest, List.append_assoc]
      rfl

/-- The document that is read at a path, with its name. -/
def named (parsers : Parsers α) (fs : FileSystem) (p : Path) : Option (String × α) :=
  (fs.read parsers p).toOption.map fun v => (p.text, v)

/-- If all faults are passed over, the documents at paths are those that can be read. -/
lemma outcome_readAll {paths : List Path}
    (h : ∀ p ∈ paths, ∀ fault, fs.read parsers p = .error fault → fault.isPassedOver = true) :
    (readAll parsers fs extension paths).outcome = .ok (paths.filterMap (named parsers fs)) := by
  induction paths with
  | nil => rfl
  | cons p rest ih =>
    obtain ⟨hp, hrest⟩ := List.forall_mem_cons.1 h
    unfold readAll
    rw [List.filterMap_cons, named]
    cases hread : fs.read parsers p with
    | ok v =>
      simp only [Told.outcome_bind, ih hrest]
      rfl
    | error fault =>
      simp only [hp fault hread, if_true, Told.outcome_bind, ih hrest]
      rfl

end SearchPath

end ProfileCompiler
