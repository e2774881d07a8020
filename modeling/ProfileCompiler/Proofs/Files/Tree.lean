import Mathlib.Data.List.Nodup
import ProfileCompiler.Files.Tree
import ProfileCompiler.Proofs.Table.Keys

/-!
# Places in a file tree

In a proper tree every place but the root is in a directory, and its names are such as can be
followed (`FileTree.Proper`).  So the names that lead from a directory to a place below it can be
followed from there (`FileTree.follow_of_has`), and what a path leads to is what its names resolve
to (`FileTree.resolve_of_follow`).

The places below a directory are listed in order and each once (`FileTree.mem_under_iff`,
`FileTree.nodup_under`, `FileTree.pairwise_under`).  Where paths lead depends on a tree by its
places and directories alone (`FileTree.Alike`), so another entry in the place of a file changes
nothing in it (`FileTree.alike_put`).
-/

namespace ProfileCompiler

/-! ## The order of places -/

namespace Path

variable {xs ys : List String}

lemma before_iff : before xs ys = true ↔ List.le xs ys := by
  unfold before
  rw [Bool.not_eq_true']
  exact List.lex_eq_false_iff_ge

lemma before_append_left (ws : List String) (h : before xs ys = true) :
    before (ws ++ xs) (ws ++ ys) = true :=
  before_iff.2 (List.append_left_le (before_iff.1 h))

end Path

namespace FileTree

variable {t : FileTree} {place q : Place} {names : List String}

/-! ## Following names -/

lemma follow_cons (name : String) (rest : List String) :
    t.follow place (name :: rest) =
      if t.isDirectoryAt place then
        if name = ".." then t.follow place.dropLast rest
        else if isOverlong name then .error .overlongPath
        else t.follow (place ++ [name]) rest
      else if t.has place then .error .notDirectory
      else .error .absent := by
  rw [follow, isDirectoryAt, Table.has]
  cases t.get? place with
  | none => rfl
  | some entry => cases entry <;> rfl

lemma isDirectoryAt_iff : t.isDirectoryAt q = true ↔ t.get? q = some .directory := by
  unfold isDirectoryAt
  cases t.get? q with
  | none => simp
  | some entry => cases entry <;> simp

lemma has_of_isDirectoryAt (h : t.isDirectoryAt place = true) : t.has place = true := by
  rw [Table.has, isDirectoryAt_iff.1 h]
  rfl

/-- Names that lead to a place resolve to it. -/
lemma resolve_of_follow (h : t.follow place names = .ok q) : resolve place names = q := by
  induction names generalizing place with
  | nil =>
    rw [follow] at h
    split at h
    · exact Except.ok.inj h
    · cases h
  | cons name rest ih =>
    rw [follow_cons] at h
    rw [resolve]
    split at h
    · split at h
      · rename_i hdots
        rw [if_pos hdots]
        exact ih h
      · rename_i hdots
        rw [if_neg hdots]
        split at h
        · cases h
        · exact ih h
    · split at h <;> cases h

lemma resolve_append (xs ys : List String) :
    resolve place (xs ++ ys) = resolve (resolve place xs) ys := by
  induction xs generalizing place with
  | nil => rfl
  | cons name rest ih => exact ih

lemma follow_append {xs : List String} (h : t.follow place xs = .ok q) (ys : List String) :
    t.follow place (xs ++ ys) = t.follow q ys := by
  induction xs generalizing place with
  | nil =>
    rw [follow] at h
    split at h
    · rw [Except.ok.inj h, List.nil_append]
    · cases h
  | cons name rest ih =>
    rw [follow_cons] at h
    rw [List.cons_append, follow_cons]
    split at h
    · rename_i hdirectory
      rw [if_pos hdirectory]
      split at h
      · rename_i hdots
        rw [if_pos hdots]
        exact ih h
      · rename_i hdots
        rw [if_neg hdots]
        split at h
        · cases h
        · rename_i hlong
          rw [if_neg hlong]
          exact ih h
    · split at h <;> cases h

/-! ## Proper trees -/

/-- A name that can stand in a directory. -/
structure IsPlain (name : String) : Prop where
  notDots : name ≠ ".."
  notNull : '\x00' ∉ name.toList
  notLong : isOverlong name = false

/-- Every place stands in the table once and in a directory, under a name that can stand there. -/
structure Proper (t : FileTree) : Prop where
  distinct : t.Distinct
  inDirectory : ∀ {place : Place} {name : String},
    t.has (place ++ [name]) = true → t.isDirectoryAt place = true
  plain : ∀ {place : Place}, t.has place = true → ∀ name ∈ place, IsPlain name

/-- Whatever is below a place is in a directory there. -/
lemma Proper.isDirectoryAt (hproper : t.Proper) (h : t.has (place ++ names) = true)
    (hne : names ≠ []) : t.isDirectoryAt place = true := by
  induction names using List.reverseRecOn with
  | nil => exact absurd rfl hne
  | append_singleton names name ih =>
    rw [← List.append_assoc] at h
    have hdirectory := hproper.inDirectory h
    by_cases hnames : names = []
    · rwa [hnames, List.append_nil] at hdirectory
    · exact ih (has_of_isDirectoryAt hdirectory) hnames

/-- The names from a place to another below it lead there. -/
lemma follow_of_has (hproper : t.Proper) (h : t.has (place ++ names) = true) :
    t.follow place names = .ok (place ++ names) := by
  induction names generalizing place with
  | nil =>
    rw [List.append_nil] at h ⊢
    rw [follow, if_pos h]
  | cons name rest ih =>
    have hplain : IsPlain name := hproper.plain h name (by simp)
    rw [follow_cons, if_pos (hproper.isDirectoryAt h (List.cons_ne_nil _ _)),
      if_neg hplain.notDots, hplain.notLong, if_neg Bool.false_ne_true]
    rw [List.append_cons] at h
    rw [ih h, List.append_assoc, List.singleton_append]

lemma resolve_of_plain (h : ∀ name ∈ names, name ≠ "..") :
    resolve place names = place ++ names := by
  induction names generalizing place with
  | nil => rw [resolve, List.append_nil]
  | cons name rest ih =>
    obtain ⟨hname, hrest⟩ := List.forall_mem_cons.1 h
    rw [resolve, if_neg hname, ih hrest, List.append_assoc, List.singleton_append]

/-! ## Places below a place -/

lemma below?_eq_some_iff : below? place q = some names ↔ names ≠ [] ∧ q = place ++ names := by
  unfold below?
  constructor
  · intro h
    split at h
    · rename_i hbelow
      rw [Bool.and_eq_true, List.isPrefixOf_iff_prefix, decide_eq_true_eq] at hbelow
      obtain ⟨⟨rest, rfl⟩, hlength⟩ := hbelow
      rw [List.drop_left, Option.some.injEq] at h
      subst h
      refine ⟨fun hrest => ?_, rfl⟩
      simp [hrest] at hlength
    · cases h
  · rintro ⟨hne, rfl⟩
    have hlength : 0 < names.length := List.length_pos_iff.2 hne
    rw [if_pos, List.drop_left]
    rw [Bool.and_eq_true, List.isPrefixOf_iff_prefix, decide_eq_true_eq]
    exact ⟨List.prefix_append .., by rw [List.length_append]; omega⟩

lemma mem_keys_iff : q ∈ t.keys ↔ t.has q = true := by
  rw [← Table.any_keys, List.any_eq_true]
  simp

lemma mem_under_iff : names ∈ t.under place ↔ names ≠ [] ∧ t.has (place ++ names) = true := by
  unfold under
  rw [List.mem_mergeSort, List.mem_filterMap]
  simp only [below?_eq_some_iff, mem_keys_iff]
  constructor
  · rintro ⟨q, hq, hne, rfl⟩
    exact ⟨hne, hq⟩
  · rintro ⟨hne, hhas⟩
    exact ⟨_, hhas, hne, rfl⟩

lemma nodup_keys (h : t.Distinct) : t.keys.Nodup := by
  unfold Table.keys
  rw [List.Nodup, List.pairwise_map]
  exact h.imp fun hne => by simpa using hne

/-- Each place below another one is listed once. -/
lemma nodup_under (h : t.Distinct) (place : Place) : (t.under place).Nodup := by
  unfold under
  rw [(List.mergeSort_perm _ _).nodup_iff]
  refine (nodup_keys h).filterMap fun a b names ha hb => ?_
  exact (below?_eq_some_iff.1 ha).2.trans (below?_eq_some_iff.1 hb).2.symm

lemma pairwise_under (t : FileTree) (place : Place) :
    (t.under place).Pairwise fun xs ys => Path.before xs ys = true := by
  refine List.pairwise_mergeSort ?_ ?_ _
  · intro xs ys zs hxy hyz
    exact Path.before_iff.2 (List.le_trans (Path.before_iff.1 hxy) (Path.before_iff.1 hyz))
  · intro xs ys
    rw [Bool.or_eq_true, Path.before_iff, Path.before_iff]
    exact List.le_total xs ys

/-! ## Trees with the same places -/

/-- Two trees have the same places in the same order, and the same directories. -/
structure Alike (t t' : FileTree) : Prop where
  keys : t'.keys = t.keys
  isDirectoryAt : ∀ place, t'.isDirectoryAt place = t.isDirectoryAt place

section Alike

variable {t' : FileTree}

lemma Alike.has (h : Alike t t') (place : Place) : t'.has place = t.has place := by
  rw [← Table.any_keys, ← Table.any_keys, h.keys]

lemma Alike.follow (h : Alike t t') : t'.follow place names = t.follow place names := by
  induction names generalizing place with
  | nil => rw [FileTree.follow, FileTree.follow, h.has]
  | cons name rest ih => simp only [follow_cons, h.isDirectoryAt, h.has, ih]

lemma Alike.under (h : Alike t t') (place : Place) : t'.under place = t.under place := by
  unfold FileTree.under
  rw [h.keys]

/-- Another entry that is no directory in the place of one that is none leaves the places and the
directories of a tree as they are. -/
lemma alike_put {entry : FileEntry} (hq : t.has q = true) (hfile : t.isDirectoryAt q = false)
    (hentry : entry ≠ .directory) : Alike t (t.put q entry) where
  keys := by rw [Table.keys_put, Table.any_keys, if_pos hq]
  isDirectoryAt place := by
    rw [Bool.eq_iff_iff, isDirectoryAt_iff, Table.get?_put]
    split
    · rename_i hplace
      rw [← eq_of_beq hplace, hfile]
      simp [hentry]
    · rw [isDirectoryAt_iff]

lemma Alike.proper (h : Alike t t') (hdistinct : t'.Distinct) (hproper : t.Proper) :
    t'.Proper where
  distinct := hdistinct
  inDirectory hhas := by
    rw [h.isDirectoryAt]
    rw [h.has] at hhas
    exact hproper.inDirectory hhas
  plain hhas := by
    rw [h.has] at hhas
    exact hproper.plain hhas

end Alike

end FileTree

end ProfileCompiler
