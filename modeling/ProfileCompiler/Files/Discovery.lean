import ProfileCompiler.Files.System
import ProfileCompiler.Note
import ProfileCompiler.Settings

/-!
# Finding documents

Documents are looked for under the load paths of the search roots: first all that end in
`.yaml`, then all that end in `.json`.  Of several paths to one file the first counts.  A file
that cannot be read is noted and passed over, unless its fault ends the search.  The search is the
same whatever parsers make the documents.
-/

namespace ProfileCompiler

/-- Where documents are looked for. -/
structure SearchPath where
  roots : List Path
  loadPaths : List String
deriving Repr, Inhabited

namespace SearchPath

/-- The endings of documents in the order in which they are looked for. -/
def extensions : List String := ["yaml", "json"]

/-- The search path that settings describe: the directories of each module path, or in their
place the data directories if these are given; then the additional paths.  Every module path is
looked into all the same. -/
def ofSettings (fs : FileSystem) (s : Settings) : Except ReadFault SearchPath := do
  let children ← s.modulePaths.mapM fun m => fs.childDirectories (.ofText m)
  let roots :=
    match s.dataDirs with
    | some dirs => dirs.map Path.ofText
    | none => children.flatten
  .ok ⟨roots ++ s.auxPaths.map Path.ofText, s.loadPaths⟩

/-- Whether the last of some names has an extension. -/
def hasExtension (extension : String) (names : List String) : Bool :=
  ("." ++ extension).toList.isSuffixOf (names.getLast?.getD "").toList

/-- The path that goes on from another one along some names. -/
def along (base : Path) (names : List String) : Path := base.join ⟨false, names⟩

/-- The candidates of an extension below a path, sorted by their names.  All directories below the
path are gone into, and none of them may have a path that is too long. -/
def candidatesBelow (fs : FileSystem) (extension : String) (base : Path) :
    Except ReadFault (List Path) := do
  if ← fs.isDirectory base then
    let place ← fs.locate base
    let below := fs.tree.under place
    if below.any fun names =>
        fs.tree.isDirectoryAt (place ++ names) && FileTree.isOverlongPath (along base names) then
      .error .overlongPath
    else .ok ((below.filter (hasExtension extension)).map (along base))
  else .ok []

/-- The paths below which candidates are looked for, root by root and load path by load
path. -/
def bases (s : SearchPath) : List Path :=
  s.roots.flatMap fun root => s.loadPaths.map fun loadPath => root.join (.ofText loadPath)

/-- The paths that do not lead to a place seen before, and all places seen then. -/
def withoutRepeats (fs : FileSystem) (seen : List Place) : List Path → List Path × List Place
  | [] => ([], seen)
  | p :: rest =>
    let place := fs.resolved p
    if seen.contains place then withoutRepeats fs seen rest
    else
      let (more, seen) := withoutRepeats fs (seen ++ [place]) rest
      (p :: more, seen)

section Reading

variable {α : Type} (parsers : Parsers α) (fs : FileSystem)

/-- The documents at the given paths, with their names. -/
def readAll (extension : String) : List Path → Told (List (String × α))
  | [] => pure []
  | p :: rest =>
    match fs.read parsers p with
    | .ok document => do
      let more ← readAll extension rest
      pure ((p.text, document) :: more)
    | .error fault =>
      if fault.isPassedOver then do
        Told.note (.unreadableFile extension p.text fault)
        readAll extension rest
      else Told.fail (.unreadable fault)

/-- The documents of an extension below the given paths, but for those at places seen
before. -/
def readBelow (extension : String) : List Place → List Path → Told (List (String × α))
  | _, [] => pure []
  | seen, base :: rest => do
    let candidates ← Told.of ((candidatesBelow fs extension base).mapError Fault.unreadable)
    let (paths, seen) := withoutRepeats fs seen candidates
    let found ← readAll parsers fs extension paths
    let more ← readBelow extension seen rest
    pure (found ++ more)

/-- The documents of the given extensions. -/
def discoverBy (s : SearchPath) : List String → Told (List (String × α))
  | [] => pure []
  | extension :: rest => do
    let found ← readBelow parsers fs extension [] s.bases
    let more ← discoverBy s rest
    pure (found ++ more)

/-- The documents on a search path, with their names. -/
def discover (s : SearchPath) : Told (List (String × α)) := discoverBy parsers fs s extensions

end Reading

end SearchPath

end ProfileCompiler
