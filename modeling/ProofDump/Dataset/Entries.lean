import ProofDump.Dataset.RawTree
import ProofDump.Sorting
import ProofDump.Text.Search
import ProofDump.Value.Order

/-!
# Tactic and theorem entries

From raw elaboration trees come tactic entries, from raw declarations theorem entries; both are tables
and both are put in the order of their first source position. Data sets come in two layouts, which ask
for the parts of a node in slightly different ways and differ in whether a theorem without a type
counts.
-/

namespace ProofDump.Dataset

/-- How a data set is laid out. -/
inductive Layout where
  /-- A theorem has its tactic entries, each with the state found for it. -/
  | grouped
  /-- A theorem has the steps of its proof, each with the line it starts on. -/
  | stepped
  deriving DecidableEq, Repr

/-- Whether a name is among the members of a value: a name of a table, a member of a list, a part of a
text. -/
def mentions (value : Value) (name : String) : Except Fault Bool :=
  match value with
  | .obj fields => .ok (Fields.get? fields name).isSome
  | .arr items => .ok (items.any (·.same (.str name)))
  | .str s => .ok (Text.contains name.toList s.toList)
  | other => .error (.notContainer other.kind)

/-- The part of a node's information that describes its tactic. -/
def tacticPart (layout : Layout) (info : Value) : Except Fault Value :=
  match layout with
  | .grouped => info.find "tactic" (.obj [])
  | .stepped => info.key "tactic"

/-- A value, or a stand-in when it does not count as present. -/
def orElse (value fallback : Value) : Value := if value.truthy then value else fallback

/-- The entry of a node, if it has a tactic. -/
def tacticEntryOf? (layout : Layout) (node : Value) : Except Fault (Option Value) := do
  let info ← node.find "info" (.obj [])
  let ref ← node.find "ref" (.obj [])
  if !(← mentions info "tactic") then return none
  let tactic ← tacticPart layout info
  let text ← ref.find "pp" .null
  let range ← ref.find "range" .null
  let before ← tactic.find "before" .null
  let after ← tactic.find "after" .null
  let references ← tactic.find "references" .null
  return some (.obj [("tactic_text", text), ("range", orElse range (.arr [.int 0, .int 0])),
    ("semantic_before", before), ("semantic_after", after), ("references", references)])

/-- Where the range of an entry starts. -/
def startOf (entry : Value) : Except Fault Value := do (← entry.key "range").index 0

/-- Where the range of an entry ends. -/
def stopOf (entry : Value) : Except Fault Value := do (← entry.key "range").index 1

/-- Entries in the order of their starts. -/
def sortByStart (entries : List Value) : Except Fault (List Value) := do
  let keyed ← entries.mapM fun entry => return (← startOf entry, entry)
  let sorted ← Sorting.sortM (fun a b => a.1.less b.1) keyed
  return sorted.map (·.2)

/-- The tactic entries of a list of elaboration trees. -/
def tacticEntries (layout : Layout) (trees : Value) : Except Fault (List Value) := do
  let roots ← trees.items
  let (nodes, stop) := RawTree.walkAll (RawTree.ofItems roots)
  let entries ← nodes.filterMapM (tacticEntryOf? layout)
  match stop with
  | some fault => throw fault
  | none => sortByStart entries

/-- The entry of a declaration, if it has a name and, in the grouped layout, a type. -/
def theoremEntryOf? (layout : Layout) (declaration : Value) : Except Fault (Option Value) := do
  let name ← declaration.find "name" .null
  let type ← declaration.find "type" .null
  let range ← declaration.find "range" .null
  let wanted := match layout with
    | .grouped => name.truthy && type.truthy
    | .stepped => name.truthy
  if wanted then
    return some (.obj [("name", name), ("type", type),
      ("range", orElse range (.arr [.int 0, .int 1000000000000]))])
  else return none

/-- The theorem entries of a list of declarations. -/
def theoremEntries (layout : Layout) (declarations : Value) : Except Fault (List Value) := do
  let declarations ← declarations.items
  sortByStart (← declarations.filterMapM (theoremEntryOf? layout))

end ProofDump.Dataset
