import ProfileCompiler.Files.System
import ProfileCompiler.Proofs.Files.Tree

/-!
# Paths and documents in a file system

A path leads from the root, or from the directory that is worked in, to what its names lead to
(`FileSystem.locate_eq_ok_iff`), and this is what it resolves to (`FileSystem.resolved_of_locate`).
Which document is read there is a matter of the place and its entry, and of the parsers
(`FileSystem.read_of_locate`).  Nothing is supposed of the parsers but where the faults in which
they end are such as are passed over (`FileTree.Parsed`).
-/

namespace ProfileCompiler

variable {α : Type} {parsers : Parsers α}

namespace FileSystem

variable {fs : FileSystem} {p : Path} {q : Place}

/-! ## Where paths lead -/

/-- A path leads to a place if its text and its names are such as can be followed, and following
them from its start leads there. -/
lemma locate_eq_ok_iff :
    fs.locate p = .ok q ↔ (∀ name ∈ p.parts, '\x00' ∉ name.toList) ∧
      FileTree.isOverlongPath p = false ∧ fs.tree.follow (fs.start p) p.parts = .ok q := by
  unfold locate
  split
  · rename_i hnull
    simp only [List.any_eq_true, List.contains_iff_mem] at hnull
    obtain ⟨name, hname, hmem⟩ := hnull
    exact iff_of_false (fun h => by cases h) fun h => h.1 name hname hmem
  · rename_i hnull
    simp only [List.any_eq_true, List.contains_iff_mem, not_exists, not_and] at hnull
    rw [and_iff_right hnull]
    cases FileTree.isOverlongPath p <;> simp

lemma resolved_of_locate (h : fs.locate p = .ok q) : fs.resolved p = q :=
  FileTree.resolve_of_follow (locate_eq_ok_iff.1 h).2.2

/-- A path with a name that is too long cannot be followed, whether or not anything is there. -/
lemma locate_of_isOverlong {name : String} {rest : List String} (hparts : p.parts = name :: rest)
    (hnull : ∀ part ∈ name :: rest, '\x00' ∉ part.toList)
    (hstart : fs.tree.isDirectoryAt (fs.start p) = true)
    (hlong : FileTree.isOverlong name = true) : fs.locate p = .error .overlongPath := by
  have hdots : name ≠ ".." := by
    rintro rfl
    revert hlong
    decide
  unfold locate
  rw [hparts, if_neg (by simpa using hnull)]
  split
  · rfl
  · rw [FileTree.follow_cons, if_pos hstart, if_neg hdots, if_pos hlong]

end FileSystem

/-! ## Documents -/

namespace FileTree

variable {t : FileTree} {q : Place}

/-- The end of the last name of a place. -/
def suffixAt (q : Place) : String := Path.suffix ⟨true, q⟩

/-- What is read in an entry of a tree. -/
def entryDocument (parsers : Parsers α) (suffix : String) : FileEntry → Except ReadFault α
  | .directory => .error .isDirectory
  | .sealed => .error .sealed
  | .file bytes => parsers.read suffix bytes

/-- What is read at a place. -/
def documentAt (parsers : Parsers α) (t : FileTree) (q : Place) : Except ReadFault α :=
  match t.get? q with
  | none => .error .absent
  | some entry => entryDocument parsers (suffixAt q) entry

lemma has_of_documentAt {document : α} (h : documentAt parsers t q = .ok document) :
    t.has q = true := by
  unfold documentAt at h
  rw [Table.has]
  cases hget : t.get? q with
  | none => rw [hget] at h; cases h
  | some entry => rfl

/-- Whatever can be wrong with a file is passed over. -/
def Parsed (parsers : Parsers α) (t : FileTree) : Prop :=
  ∀ q fault, documentAt parsers t q = .error fault → fault.isPassedOver = true

end FileTree

namespace FileSystem

variable {fs : FileSystem} {p : Path} {q : Place}

/-- What is read at a path is what is read at the place that it leads to, if its last name is the
name of that place. -/
lemma read_of_locate (h : fs.locate p = .ok q) (hlast : p.suffix = FileTree.suffixAt q) :
    fs.read parsers p = FileTree.documentAt parsers fs.tree q := by
  unfold read FileTree.documentAt
  simp only [h, hlast, bind, Except.bind]
  cases fs.tree.get? q with
  | none => rfl
  | some entry => cases entry <;> rfl

/-! ## Another entry at a place -/

/-- The file system with an entry put at a place. -/
def put (fs : FileSystem) (q : Place) (entry : FileEntry) : FileSystem :=
  { fs with tree := fs.tree.put q entry }

/-- Two file systems have alike trees, and the same directory is worked in. -/
structure Alike (fs fs' : FileSystem) : Prop where
  tree : FileTree.Alike fs.tree fs'.tree
  working : fs'.working = fs.working

lemma Alike.locate {fs' : FileSystem} (h : Alike fs fs') (p : Path) :
    fs'.locate p = fs.locate p := by
  unfold FileSystem.locate start
  rw [h.working, h.tree.follow]

lemma alike_put {entry : FileEntry} (hq : fs.tree.has q = true)
    (hfile : fs.tree.isDirectoryAt q = false) (hentry : entry ≠ .directory) :
    Alike fs (fs.put q entry) where
  tree := FileTree.alike_put hq hfile hentry
  working := rfl

end FileSystem

end ProfileCompiler
