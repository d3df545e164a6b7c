import ProofDump.CommandLine
import ProofDump.Project.Run
import ProofDump.Toolchain

/-!
# Indexing a project

The program analyses the modules of a project, and those of the library of its compiler, whose names
begin as asked for. Both are analysed twice: first with all plugins but the one for elaboration, then
with that one alone.
-/

namespace ProofDump.Indexing

/-- The rounds of analyses by their plugins. -/
def rounds : List (List Plugin) :=
  [[.module, .declaration, .symbol, .ast, .line], [.elaboration]]

/-- What a run of the program came to: what it printed, and the calls it made or the fault that ended
it. -/
structure Report where
  printed : String
  calls : Except Fault (List Call)

/-- The batches of a run: every base directory with every round. -/
def batches (bases : List Path) (beginnings : Value) : List BatchOptions :=
  bases.flatMap fun base => rounds.map fun plugins =>
    { base := some base, beginnings := some beginnings,
      plugins := Plugin.names plugins, force := true }

/-- The calls of batches one after the other. -/
def runBatches (project : Project) (tree : FileTree) (processes : Processes) :
    List BatchOptions → Except Fault (List Call)
  | [] => .ok []
  | options :: rest =>
    match project.batch tree processes options with
    | (_, .error fault) => .error fault
    | (tree, .ok batch) => do
      return batch.calls ++ (← runBatches project tree processes rest)

/-- The root of the toolchain: the given one, or that of the project. -/
def systemRoot (tree : FileTree) (home : String) (given : Option String) (project : Project) :
    Except Fault Path :=
  match given with
  | some root => .ok (.ofText root)
  | none => Toolchain.directory tree home project.root

/-- Where the sources of the library lie in a toolchain. -/
def librarySources (system : Path) : Path := system.join (.relative ["src", "lean"])

/-- Index a project. -/
def index (tree : FileTree) (home : String) (given : Option String) (processes : Processes)
    (root beginnings : String) : Except Fault (List Call) := do
  let project := Project.ofText root
  let beginnings := .arr ((Text.splitAt ',' beginnings).map fun name =>
    Value.texts (Name.parse name))
  let system ← systemRoot tree home given project
  runBatches project tree processes
    (batches [project.root, librarySources system] beginnings)

/-- What the program prints before it starts. -/
def announcement (root : String) (beginnings : Option String) : String :=
  "project_root: " ++ root ++ "\nprefixes: " ++ beginnings.getD "[]" ++ "\n"

/-- Run the program of the given name. -/
def run (program : String) (tree : FileTree) (home : String) (given : Option String)
    (processes : Processes) (words : List String) : Report :=
  match CommandLine.parse words with
  | .help => ⟨CommandLine.help program, .error (.exit 0)⟩
  | .commandHelp => ⟨CommandLine.commandHelp program, .error (.exit 0)⟩
  | .misuse => ⟨"", .error (.exit 2)⟩
  | .nothing => ⟨"", .error (.noAttribute "Namespace" "project_root")⟩
  | .index root none => ⟨announcement root none, .error (.noAttribute "list" "split")⟩
  | .index root (some beginnings) =>
    ⟨announcement root (some beginnings), index tree home given processes root beginnings⟩

end ProofDump.Indexing
