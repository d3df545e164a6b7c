import ProofDump.Indexing

/-!
# The command line

Gathers what the program has to see of the file system, runs it, and prints what it came to. The
analyser is not started from here: its calls are printed one a line, each with the directory it is to be
started in, so that a shell can do it.
-/

namespace ProofDump.Main

/-- The content of a file. Only a file that names a toolchain is read; of all others it is enough that
they are there. -/
def contentOf (entry : IO.FS.DirEntry) : IO Content := do
  if entry.fileName = Toolchain.fileName then return ⟨(← IO.FS.readBinFile entry.path).toList⟩
  else return ""

/-- Add a file, or a directory with all that is below it, to a tree. -/
partial def gather (tree : FileTree) (entry : IO.FS.DirEntry) : IO FileTree := do
  let names := Path.partsOf entry.path.toString
  if ← entry.path.isDir then
    (← entry.path.readDir).foldlM gather (tree.addDirectory names)
  else
    return { tree with files := (names, ← contentOf entry) :: tree.files }

/-- Add what is below a directory to a tree, if the directory is there. -/
def gatherBelow (tree : FileTree) (directory : Path) : IO FileTree := do
  let place := (← IO.currentDir) / directory.text
  if ← place.isDir then
    let path ← IO.FS.realPath place
    (← path.readDir).foldlM gather (tree.addDirectory (Path.partsOf path.toString))
  else return tree

/-- What a run with these words has to see: the project, and the library of its toolchain. -/
def treeFor (here : List String) (home : String) (given : Option String) (words : List String) :
    IO FileTree := do
  match CommandLine.parse words with
  | .index root _ =>
    let project := Project.ofText root
    let tree ← gatherBelow (.empty here) project.root
    match Indexing.systemRoot tree home given project with
    | .ok system => gatherBelow tree (Indexing.librarySources system)
    | .error _ => return tree
  | _ => return .empty here

/-- A call as a line for a shell. -/
def lineOf (call : Call) : String :=
  (call.directory.map fun directory => "cd " ++ directory ++ " && ").getD "" ++
    " ".intercalate call.args

/-- End the program with a fault: with the exit status that it asks for, or with a message. -/
def fail (fault : Fault) : IO UInt32 :=
  match fault with
  | .exit status => return UInt32.ofNat status.toNat
  | _ => do
    IO.eprintln fault.message
    return 1

end ProofDump.Main

/-- Run the program. -/
def main (words : List String) : IO UInt32 := do
  let here := ProofDump.Path.partsOf (← IO.currentDir).toString
  let home := (← IO.getEnv "HOME").getD "/"
  let given ← IO.getEnv "LEAN_SYSROOT"
  let tree ← ProofDump.Main.treeFor here home given words
  let program := (← IO.appPath).fileName.getD ""
  let report := ProofDump.Indexing.run program tree home given (fun _ => ⟨0, ""⟩) words
  IO.print report.printed
  match report.calls with
  | .ok calls =>
    calls.forM fun call => IO.println (ProofDump.Main.lineOf call)
    return 0
  | .error fault => ProofDump.Main.fail fault
