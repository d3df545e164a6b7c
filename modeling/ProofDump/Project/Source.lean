import ProofDump.FileTree
import ProofDump.Value.Access

/-!
# Sources of modules

Where the source of a module lies. The first part of the name decides in which directory to look, and
the rest of the name leads from there to a directory or to a file with the suffix of sources.
-/

namespace ProofDump.Project

/-- The directory in which the sources of a module lie, by the first part of its name. -/
def sourceRoot (root : String) (module : Value) : Except Fault String := do
  match ← module.index 0 with
  | .str first =>
    let starts (word : String) : Bool := Text.startsWith word.toList first.toList
    if starts "Mathlib" || starts "Cache" then return root ++ "/.lake/packages/mathlib"
    else if starts "Init" then
      return "/home/linfe/.elan/toolchains/leanprover--lean4---v4.24.0/src/lean"
    else return root
  | other => throw (.noAttribute other.kind "startswith")

/-- The path of a module below its source directory, without suffix. -/
def sourcePath (root : String) (module : Value) : Except Fault String := do
  let directory ← sourceRoot root module
  let joined ← module.joinRaw "/"
  return directory ++ "/" ++ String.ofList (Text.replace ['.'] ['/'] joined.toList)

/-- The directory or file of a module, or only its file when `fileOnly` is set. Without access to files
the question itself is a fault. -/
def sourceOf? (files : Option FileTree) (root : String) (module : Value) (fileOnly : Bool) :
    Except Fault (Option String) := do
  let path ← sourcePath root module
  match files with
  | none => throw (.unbound "os")
  | some tree =>
    if !fileOnly && tree.holds path then return some path
    let file := path ++ ".lean"
    return if tree.holds file then some file else none

end ProofDump.Project
