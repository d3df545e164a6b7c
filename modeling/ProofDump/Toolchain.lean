import ProofDump.FileTree
import ProofDump.Text.Blank
import ProofDump.Text.Lines
import ProofDump.Text.Numeral

/-!
# Toolchains

A project names the version of its compiler in a file of one line. The directory of that version lies
below the home directory. The first character of a version is taken for its letter and written anew, so
a version that starts with another letter loses it.
-/

namespace ProofDump.Toolchain

/-- What stands before the version. -/
def origin : String := "leanprover/lean4:"

/-- A version with its letter before it, if it starts with a number. -/
def withLetter (version : List Char) : List Char :=
  match version with
  | first :: rest => if Text.isNumeric first then 'v' :: first :: rest else first :: rest
  | [] => []

/-- The version that a line names, if it has the right form. -/
def parse? (line : List Char) : Option String :=
  match Text.dropPrefix? origin.toList line with
  | some (first :: rest) =>
    if (first :: rest).contains '\n' then none
    else some (String.ofList (withLetter (first :: rest)))
  | _ => none

/-- The name of the file in which a project names its version. -/
def fileName : String := "lean-toolchain"

/-- The version that the project at a root names. -/
def version (tree : FileTree) (root : Path) : Except Fault String := do
  let content ← tree.read (root.join (.relative [fileName])).text
  match parse? (Text.strip (Text.fileText content)) with
  | some version => return version
  | none => throw (.violated "Invalid config.")

/-- The directory of a version below the home directory. -/
def directoryOf (home version : String) : Path :=
  ((Path.ofText home).join (.relative [".elan", "toolchains"])).join
    (.ofText ("leanprover--lean4---v" ++ String.ofList (version.toList.drop 1)))

/-- The directory of the toolchain of the project at a root. -/
def directory (tree : FileTree) (home : String) (root : Path) : Except Fault Path := do
  return directoryOf home (← version tree root)

end ProofDump.Toolchain
