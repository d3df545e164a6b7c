import ProofDump.Dataset.Entries
import ProofDump.Dataset.LineStates
import ProofDump.Json.Printer
import ProofDump.Json.Reader
import ProofDump.Text.Lines

/-!
# Data sets of theorems

A tactic belongs to a theorem when it starts within the theorem's range, both ends included. In the
grouped layout the entries are collected first and each is then given the state at its start; in the
stepped layout every tactic becomes a step with its line and state at once.
-/

namespace ProofDump.Dataset

/-- The entries that start within a range. -/
def within (start stop : Value) (tactics : List Value) : Except Fault (List Value) :=
  tactics.filterM fun tactic => do
    let position ← startOf tactic
    if ← start.atMost position then position.atMost stop else return false

/-- A theorem with the tactic entries that belong to it. -/
def group (tactics entry : Value) : Except Fault Value := do
  let start ← startOf entry
  let stop ← stopOf entry
  let own ← within start stop (← tactics.items)
  let name ← entry.key "name"
  let type ← entry.key "type"
  return .obj [("theorem_name", name), ("theorem_type", type), ("tactics", .arr own)]

/-- Every theorem with the tactic entries that belong to it. -/
def groupAll (theorems tactics : Value) : Except Fault (List Value) := do
  (← theorems.items).mapM (group tactics)

/-- Change the members of a sequence; a table or a text is only walked through. -/
def overItems (value : Value) (change : Value → Except Fault Value) : Except Fault Value := do
  let changed ← (← value.items).mapM change
  match value with
  | .arr _ => return .arr changed
  | other => return other

/-- Give a table a new entry. -/
def withEntry (table : Value) (name : String) (entry : Value) : Value :=
  match table with
  | .obj fields => .obj (Fields.put fields name entry)
  | other => other

/-- A tactic entry with the state at its start. -/
def attachState (states : LineStates) (tactic : Value) : Except Fault Value := do
  let position ← startOf tactic
  return withEntry tactic "pretty_state" (← states.state position)

/-- A data set in which every tactic entry has the state at its start. -/
def attachStates (states : LineStates) (dataset : Value) : Except Fault Value :=
  overItems dataset fun entry => do
    let tactics ← overItems (← entry.key "tactics") (attachState states)
    return withEntry entry "tactics" tactics

/-- The data set in the grouped layout. -/
def buildGrouped (declarations trees lines : Value) : Except Fault Value := do
  let theorems ← theoremEntries .grouped declarations
  let tactics ← tacticEntries .grouped trees
  let states ← LineStates.ofLines lines
  attachStates states (.arr (← groupAll (.arr theorems) (.arr tactics)))

/-- The step of a tactic that starts within a range. -/
def step? (states : LineStates) (start stop tactic : Value) : Except Fault (Option Value) := do
  let position ← startOf tactic
  if !(← start.atMost position) then return none
  if !(← position.atMost stop) then return none
  let (line, state) ← states.lineAndState position
  let text ← tactic.key "tactic_text"
  let before ← tactic.key "semantic_before"
  let after ← tactic.key "semantic_after"
  return some (.obj [("line", line), ("tactic_text", text), ("semantic_before", before),
    ("semantic_after", after), ("pretty_state", state)])

/-- A theorem with the steps of its proof. -/
def proof (states : LineStates) (tactics entry : Value) : Except Fault Value := do
  let start ← startOf entry
  let stop ← stopOf entry
  let steps ← (← tactics.items).filterMapM (step? states start stop)
  let name ← entry.key "name"
  let type ← entry.key "type"
  return .obj [("theorem_name", name), ("theorem_type", type), ("proof", .arr steps)]

/-- The data set in the stepped layout, from entries that are already there. -/
def buildStepped (theorems tactics : Value) (states : LineStates) : Except Fault Value := do
  return .arr (← (← theorems.items).mapM (proof states tactics))

/-- The data set in either layout, from the three parts of a dump. -/
def build (layout : Layout) (declarations trees lines : Value) : Except Fault Value :=
  match layout with
  | .grouped => buildGrouped declarations trees lines
  | .stepped => do
    let theorems ← theoremEntries .stepped declarations
    let tactics ← tacticEntries .stepped trees
    let states ← LineStates.ofLines lines
    buildStepped (.arr theorems) (.arr tactics) states

/-- The value in a file of a dump; `none` stands for a file that is not there. -/
def load (path : String) (content : Option String) : Except Fault Value :=
  match content with
  | none => .error (.noFile (Text.quoted path))
  | some content => Json.read (String.ofList (Text.fileText content))

/-- What is printed when a data set of this size is done. -/
def doneMessage (layout : Layout) (size : Nat) : String :=
  match layout with
  | .grouped => "Dataset size (theorems): " ++ toString size ++ "\n"
  | .stepped => "Done. Theorems: " ++ toString size ++ "\n"

/-- Build the data set of a dump in three files: the text of the file written and what is printed. -/
def buildFiles (layout : Layout) (declarations trees lines : Option String) :
    Except Fault (String × String) := do
  let declarations ← load "../lean_test/Test/LeanTest.Basic.decl.json" declarations
  let trees ← load "../lean_test/Test/LeanTest.Basic.elab.json" trees
  let lines ← load "../lean_test/Test/LeanTest.Basic.line.json" lines
  let dataset ← build layout declarations trees lines
  match Text.written? (Json.pages dataset).toList with
  | none => throw .unencodable
  | some content => return (String.ofList content, doneMessage layout (← dataset.length))

end ProofDump.Dataset
