import ProofDump.Project.Basic
import ProofDump.Text.Template

/-!
# Running the analyser

An analysis of a source file asks the analyser for the files of some plugins. It is skipped when all of
them are there, unless it is forced. Starting the analyser is described by a call, and what a call comes
to is looked up by the name of the source file. A batch analyses the modules of a project.
-/

namespace ProofDump

/-- A command with its arguments, and the directory in which it is started. -/
structure Call where
  args : List String
  directory : Option String
  deriving DecidableEq, Repr

/-- What a finished command left: its exit code and what it wrote about errors. -/
structure Completed where
  code : Int
  errors : String
  deriving DecidableEq, Repr

/-- What a command on a source file comes to, by the name of the file. -/
abbrev Processes := String → Completed

/-- An analysis of a source file. -/
structure Analysis where
  file : Path
  module : String
  root : Option Path
  plugins : Value
  template : String
  initializers : Bool
  force : Bool

namespace Analysis

/-- The name that an analysis has for the module of a file: the given one, or the name of the file
without its suffix. -/
def moduleName (file : Path) (given : Value) : String :=
  if given.isNull then file.stem else given.reported

/-- The template of output files beside the source. -/
def besideSource : String := "$file_dir/$module.$p.json"

/-- The values of the placeholders in the template of an output file. -/
def bindings (analysis : Analysis) (plugin short : String) : List (String × String) :=
  [("root", (analysis.root.map Path.text).getD "None"), ("file_dir", analysis.file.parent.text),
   ("module", analysis.module), ("plugin", plugin), ("p", short)]

/-- The option that asks for a plugin, and the file it is to write. -/
def output (analysis : Analysis) (plugin : Value) : Except Fault (String × Path) :=
  match plugin with
  | .str name => do
    let short ← Plugin.shortNameOf plugin
    let text ← Text.fill (analysis.bindings name short) analysis.template
    return ("--" ++ name, .ofText text)
  | other => .error (.badArgument
      ("can only concatenate str (not \"" ++ other.kind ++ "\") to str"))

/-- The call of the analyser that writes the given files. -/
def call (analysis : Analysis) (outputs : List (String × Path)) : Call where
  args := ["lake", "env", "jixia"] ++ (if analysis.initializers then ["-i"] else []) ++
    outputs.flatMap (fun (option, file) => [option, file.text]) ++ [analysis.file.text]
  directory := analysis.root.map Path.text

/-- The option and the file of a plugin, and whether the file is there. -/
def outputAt (analysis : Analysis) (tree : FileTree) (plugin : Value) :
    Except Fault ((String × Path) × Bool) := do
  let output ← analysis.output plugin
  return (output, ← tree.exists? output.2)

/-- The call that an analysis needs, if it is not skipped. -/
def call? (analysis : Analysis) (tree : FileTree) : Except Fault (Option Call) := do
  let outputs ← (← analysis.plugins.items).mapM (analysis.outputAt tree)
  if analysis.force || outputs.any fun (_, present) => !present then
    return some (analysis.call (outputs.map (·.1)))
  else return none

/-- Run an analysis: the call and what it came to, unless it is skipped. -/
def run (analysis : Analysis) (tree : FileTree) (processes : Processes) :
    Except Fault (Option (Call × Completed)) := do
  return (← analysis.call? tree).map fun call => (call, processes analysis.file.name)

end Analysis

/-- What a batch is to analyse, and how. -/
structure BatchOptions where
  /-- The base directory, if it is not the root. -/
  base : Option Path := none
  /-- Only modules whose names begin with one of these, if there is such a list. -/
  beginnings : Option Value := none
  plugins : Value := Plugin.names Plugin.all
  initializers : Bool := true
  force : Bool := false

/-- What a batch came to: the modules, each with what its command left unless it was skipped, and the
calls. A module whose command failed is listed twice. -/
structure Batch where
  entries : List (List String × Option Completed)
  calls : List Call

namespace Project

/-- Whether a module begins with a member of a list. -/
def beginsWithAny (beginnings : List Value) (module : List String) : Except Fault Bool :=
  match beginnings with
  | [] => .ok false
  | beginning :: rest => do
    if ← Name.isBeginning beginning (Value.texts module) then return true
    else beginsWithAny rest module

/-- The modules that a batch is about. -/
def chosen (tree : FileTree) (base : Path) (beginnings : Option Value) :
    Except Fault (List (List String)) := do
  let modules ← modules tree base .listed
  match beginnings with
  | none => return modules
  | some beginnings => modules.filterM fun module => do
    beginsWithAny (← beginnings.items) module

/-- The analysis of a module in a batch. -/
def analysis (project : Project) (options : BatchOptions) (directory file : Path)
    (module : List String) : Analysis where
  file
  module := ".".intercalate module
  root := some project.root
  plugins := options.plugins
  template := directory.text ++ "/$module.$p.json"
  initializers := options.initializers
  force := options.force

/-- The entries of a module: one, or two when its command failed. -/
def entriesOf (module : List String) (completed : Option Completed) :
    List (List String × Option Completed) :=
  if completed.any (·.code ≠ 0) then [(module, completed), (module, completed)]
  else [(module, completed)]

/-- Analyse modules, with the directory of analyses in place. -/
def runAll (project : Project) (tree : FileTree) (processes : Processes) (options : BatchOptions)
    (modules : List (List String)) : Except Fault Batch := do
  let directory := tree.resolve project.output
  let sources ← modules.mapM fun module => do
    return (module, ← sourceFile tree (options.base.getD project.root) (Value.texts module))
  let runs ← sources.mapM fun (module, file) => do
    return (module, ← (project.analysis options directory file module).run tree processes)
  return {
    entries := runs.flatMap fun (module, done) => entriesOf module (done.map (·.2))
    calls := runs.filterMap fun (_, done) => done.map (·.1) }

/-- Analyse the modules of a project. The directory of analyses is made first, so it is there even when
a fault follows. -/
def batch (project : Project) (tree : FileTree) (processes : Processes) (options : BatchOptions) :
    FileTree × Except Fault Batch :=
  match chosen tree (options.base.getD project.root) options.beginnings with
  | .error fault => (tree, .error fault)
  | .ok modules =>
    match tree.makeDirectory project.output with
    | .error fault => (tree, .error fault)
    | .ok tree => (tree, project.runAll tree processes options modules)

end Project

end ProofDump
