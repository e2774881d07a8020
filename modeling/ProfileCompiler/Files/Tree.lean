import ProfileCompiler.Files.Path
import ProfileCompiler.ReadFault
import ProfileCompiler.Value.Table

/-!
# File trees

A file tree is a table of places, each the list of names that leads to it from the root; a
place holds a directory or the bytes of a file.

* `FileTree.follow` follows names from a place to another one.
* `FileTree.under` lists the places below a directory.
-/

namespace ProfileCompiler

/-- The names that lead to a file or directory from the root. -/
abbrev Place := List String

/-- What is at a place. -/
inductive FileEntry where
  | directory
  | file (bytes : ByteArray)
  /-- A file that must not be opened. -/
  | sealed

/-- The files and directories by place. -/
abbrev FileTree := Table Place FileEntry

namespace FileTree

/-- The places of the directories around a place, the outermost first. -/
def outer : Place → List Place
  | [] => []
  | name :: rest => [] :: (outer rest).map (name :: ·)

/-- The tree with a directory and the directories around it. -/
def addDirectory (t : FileTree) (place : Place) : FileTree :=
  (outer place ++ [place]).foldl (fun t p => if t.has p then t else t.put p .directory) t

/-- The tree with a file and the directories around it. -/
def addFile (t : FileTree) (place : Place) (bytes : ByteArray) : FileTree :=
  ((outer place).foldl addDirectory t).put place (.file bytes)

/-- Whether a directory is at a place. -/
def isDirectoryAt (t : FileTree) (place : Place) : Bool :=
  match t.get? place with
  | some .directory => true
  | _ => false

/-- The greatest number of bytes in a name. -/
def nameLimit : Nat := 255

/-- The greatest number of bytes in the text of a path. -/
def pathLimit : Nat := 4095

/-- Whether a name is too long for any directory. -/
def isOverlong (name : String) : Bool := nameLimit < name.utf8ByteSize

/-- The place that names lead to from a place.  Every name is looked up in a directory; two
dots lead to the directory around it. -/
def follow (t : FileTree) : Place → List String → Except ReadFault Place
  | place, [] => if t.has place then .ok place else .error .absent
  | place, name :: rest =>
    match t.get? place with
    | some .directory =>
      if name = ".." then follow t place.dropLast rest
      else if isOverlong name then .error .overlongPath
      else follow t (place ++ [name]) rest
    | some (.file _) | some .sealed => .error .notDirectory
    | none => .error .absent

/-- The place that names lead to from a place as far as can be told from the names: two dots take
back the name before them. -/
def resolve : Place → List String → Place
  | place, [] => place
  | place, name :: rest => resolve (if name = ".." then place.dropLast else place ++ [name]) rest

/-- Whether the text of a path is too long for the path to be followed. -/
def isOverlongPath (p : Path) : Bool := pathLimit < p.text.utf8ByteSize

/-- The names that lead from one place to another below it. -/
def below? (place other : Place) : Option (List String) :=
  if place.isPrefixOf other && place.length < other.length then
    some (other.drop place.length)
  else none

/-- The names that lead from a place to those below it, sorted. -/
def under (t : FileTree) (place : Place) : List (List String) :=
  (t.keys.filterMap (below? place)).mergeSort Path.before

end FileTree

end ProfileCompiler
