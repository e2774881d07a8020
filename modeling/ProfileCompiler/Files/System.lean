import ProfileCompiler.Files.Content
import ProfileCompiler.Files.Tree

/-!
# File systems

A file system is a file tree together with the directory that is worked in, from which paths start
that do not start from the root.

* `FileSystem.locate` follows a path to a place.
* `FileSystem.resolved` is the place of a path as far as can be told from its names.
* `FileSystem.read` reads the document in a file.
-/

namespace ProfileCompiler

/-- A file tree, and the directory that is worked in. -/
structure FileSystem where
  tree : FileTree
  working : Place

namespace FileSystem

/-- The place that a path starts from. -/
def start (fs : FileSystem) (p : Path) : Place := if p.absolute then [] else fs.working

/-- The place that a path leads to. -/
def locate (fs : FileSystem) (p : Path) : Except ReadFault Place :=
  if p.parts.any fun name => name.toList.contains '\x00' then .error .nullInPath
  else if FileTree.isOverlongPath p then .error .overlongPath
  else fs.tree.follow (fs.start p) p.parts

/-- The place that a path leads to as far as can be told from its names. -/
def resolved (fs : FileSystem) (p : Path) : Place := FileTree.resolve (fs.start p) p.parts

/-- Whether a path leads to a directory.  What a path that is too long leads to cannot be
told. -/
def isDirectory (fs : FileSystem) (p : Path) : Except ReadFault Bool :=
  match fs.locate p with
  | .ok place => .ok (fs.tree.isDirectoryAt place)
  | .error .overlongPath => .error .overlongPath
  | .error _ => .ok false

/-- The paths to the directories in the directory of a path, sorted. -/
def childDirectories (fs : FileSystem) (p : Path) : Except ReadFault (List Path) := do
  if ← fs.isDirectory p then
    let place ← fs.locate p
    let children := (fs.tree.under place).filterMap fun
      | [name] => some (p.child name)
      | _ => none
    children.filterM fs.isDirectory
  else .ok []

/-- The document in the file at a path. -/
def read {α : Type} (parsers : Parsers α) (fs : FileSystem) (p : Path) : Except ReadFault α := do
  match fs.tree.get? (← fs.locate p) with
  | none => .error .absent
  | some .directory => .error .isDirectory
  | some .sealed => .error .sealed
  | some (.file bytes) => parsers.read p.suffix bytes

end FileSystem

end ProfileCompiler
