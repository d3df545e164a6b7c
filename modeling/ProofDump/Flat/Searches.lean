import ProofDump.Flat.Export
import ProofDump.Project.Basic
import ProofDump.Project.Search

/-!
# Copies of found modules

Copies for all modules that searches find, once all searches are done. The information about a module
is read from the directory of analyses, and the first module without it ends the copying.
-/

namespace ProofDump.Flat

/-- The modules that searches find, one search after the other. -/
def searchAll (tree : FileTree) (root : String) (excluded : Option Value) (searches : Value) :
    Except Fault (List (List String)) := do
  return (← (← searches.items).mapM (Project.search (some tree) root excluded)).flatten

/-- The text of the information about a module. -/
def infoText (project : Project) (tree : FileTree) (module : List String) :
    Except Fault String := do
  tree.read (← project.infoFile (Value.texts module) Plugin.module.shortName).text

/-- The modules that searches find, each with the text of its information. The directory of the copies
is made first. -/
def gather (tree : FileTree) (root : String) (excluded : Option Value) (searches : Value) :
    Except Fault (List (List String × String)) := do
  let tree ← tree.makeDirectories (.ofText (root ++ "/.jixiaw_test"))
  let project := Project.ofText root
  let modules ← searchAll tree project.root.text excluded searches
  modules.mapM fun module => do return (module, ← infoText project tree module)

/-- Write the source of a module to a directory. The file is there, and empty, before the source is taken as
a text, so a source that is none leaves it so. -/
def writeSource (tree : FileTree) (root : Path) (directory : String) (module : Value) :
    Except Fault (FileTree × Option Fault) := do
  let name ← module.joinRaw "."
  let content ← tree.contentOf (← Project.sourceFile tree root module).text
  let path := joinPathText directory (name ++ ".lean")
  match content.text with
  | .ok text => return (← tree.write path text, none)
  | .error fault => return (← tree.write path "", some fault)

end ProofDump.Flat
