import ProofDump.FileTree
import ProofDump.Name
import ProofDump.Plugin

/-!
# Projects

A project has a root directory and a directory for the files that the analyser writes. Sources lie below
a base directory, usually the root, and below every package directory in it. This module lists and
locates modules and tells which of them have been analysed.
-/

namespace ProofDump

/-- A project: its root and the directory of its analyses. -/
structure Project where
  root : Path
  output : Path
  deriving DecidableEq, Repr

namespace Project

/-- The project at a root whose analyses lie in a directory below it. -/
def ofTexts (root output : String) : Project :=
  ⟨.ofText root, (Path.ofText root).join (.ofText output)⟩

/-- The project at a root with the usual directory of analyses. -/
def ofText (root : String) : Project := ofTexts root ".jixia"

/-! ### Sources -/

/-- Where the packages of a base directory lie. -/
def packages (base : Path) : Path := base.join (.relative [".lake", "packages"])

/-- The directories that hold sources: the base directory and its packages. -/
def sourceRoots (tree : FileTree) (base : Path) : Except Fault (List Path) := do
  let packages := packages base
  if ← tree.existsFile? packages then throw (.notDirectory (Text.quoted packages.text))
  return base :: (← tree.subdirectories? packages)

/-- The path of the source of a module below a directory that holds sources. -/
def modulePath (module : Value) : Except Fault Path := do
  let parts ← (← module.items).mapM Value.pathText
  (Path.ofTexts parts).withSuffix ".lean"

/-- The source of a module: the first that is there, in the base directory or in a package; without one,
where it would be in the base directory. -/
def sourceFile (tree : FileTree) (base : Path) (module : Value) : Except Fault Path := do
  let roots ← sourceRoots tree base
  let path ← modulePath module
  match ← (roots.map (·.join path)).findM? tree.existsFile? with
  | some file => return file
  | none => return base.join path

/-- Whether modules in hidden directories are listed. -/
inductive Hidden where
  | listed
  /-- Left out, and with them the modules that lie in no directory. -/
  | omitted
  deriving DecidableEq, Repr

/-- Whether the name of a directory is hidden. -/
def isHiddenName (name : String) : Bool := name.toList.head? = some '.'

/-- Whether the modules of a directory are left out: the names that lead to it, written as a path, begin
with a dot. -/
def Hidden.skips (hidden : Hidden) (names : List String) : Bool :=
  match hidden with
  | listed => false
  | omitted => isHiddenName (Path.relative names).text

/-- Whether a walk goes on from a directory into one that lies in it. From directories that are left out
it goes on into all. -/
def Hidden.enters (hidden : Hidden) (names : List String) (name : String) : Bool :=
  match hidden with
  | listed => true
  | omitted => skips omitted names || !isHiddenName name

/-- The modules of the source files in a directory, by the names that lead to them. -/
def modulesIn (visit : FileTree.Visit) : List (List String) :=
  (visit.files.filter FileTree.isSourceName).map fun name =>
    visit.names ++ [String.ofList (name.toList.take (name.length - 5))]

/-- The modules of the source files below a directory. -/
def modulesUnder (tree : FileTree) (hidden : Hidden) (directory : Path) :
    Except Fault (List (List String)) := do
  let visits ← tree.walkFrom hidden.enters directory
  return (visits.filter fun visit => !hidden.skips visit.names).flatMap modulesIn

/-- The modules of the source files of a base directory and its packages. -/
def modules (tree : FileTree) (base : Path) (hidden : Hidden) :
    Except Fault (List (List String)) := do
  return (← (← sourceRoots tree base).mapM (modulesUnder tree hidden)).flatten

/-! ### Analyses -/

/-- The file that a plugin with this short name writes about a module. -/
def infoFile (project : Project) (module : Value) (short : String) : Except Fault Path := do
  return project.output.join (.ofText ((← Name.written module) ++ "." ++ short ++ ".json"))

/-- Whether a module has the file of a plugin with this short name. -/
def hasInfo (project : Project) (tree : FileTree) (module : Value) (short : String) :
    Except Fault Bool := do
  return tree.isFile (← project.infoFile module short).text

/-- Whether a module has the files of all plugins; they are looked for up to the first that is missing. -/
def isFinished (project : Project) (tree : FileTree) (module : Value) : Except Fault Bool :=
  Plugin.all.allM fun plugin => do tree.exists? (← project.infoFile module plugin.shortName)

/-- Modules that are not finished, what was printed about them, and the fault that ended the search for
them, if one did. -/
structure Unfinished where
  modules : List Value := []
  printed : String := ""
  fault : Option Fault := none

/-- The modules that are not finished, after those found before. -/
def unfinishedFrom (project : Project) (tree : FileTree) (found : Unfinished) :
    List Value → Unfinished
  | [] => found
  | module :: rest =>
    match project.isFinished tree module with
    | .error fault => { found with fault := some fault }
    | .ok true => unfinishedFrom project tree found rest
    | .ok false =>
      unfinishedFrom project tree
        { found with
          modules := found.modules ++ [module]
          printed := found.printed ++ "module " ++ module.reported ++ " is not finished\n" } rest

/-- The modules that are not finished. -/
def unfinished (project : Project) (tree : FileTree) (modules : Value) : Unfinished :=
  match modules.items with
  | .ok modules => unfinishedFrom project tree {} modules
  | .error fault => { fault := some fault }

end Project

end ProofDump
