import ProofDump.Sorting
import ProofDump.Value.Access
import ProofDump.Value.Order

/-!
# States by line

A table from the position where a line starts to the proof state shown there. Positions are compared
by value; a position that is written again keeps its place and gets the new state. The state at a
position between two lines is that of the nearest line before it.
-/

namespace ProofDump.Dataset

/-- States by the position where their line starts, in the order of first writing. -/
abbrev LineStates := List (Value × Value)

namespace LineStates

/-- The state recorded for a position. -/
def get? (states : LineStates) (position : Value) : Option Value :=
  (states.find? fun entry => entry.1.sameMember position).map (·.2)

/-- Record a state for a position: in its old place if it has one, at the end otherwise. -/
def put (states : LineStates) (position state : Value) : LineStates :=
  match states with
  | [] => [(position, state)]
  | (key, old) :: rest =>
    if key.sameMember position then (key, state) :: rest else (key, old) :: put rest position state

/-- Lists and tables cannot be positions. -/
def checkPosition : Value → Except Fault Unit
  | .arr items => .error (.unhashable (Value.arr items).kind)
  | .obj fields => .error (.unhashable (Value.obj fields).kind)
  | _ => .ok ()

/-- Record entries one after the other. -/
def ofEntries (entries : List (Value × Value)) : Except Fault LineStates :=
  entries.foldlM (fun states entry => do
    checkPosition entry.1
    return states.put entry.1 entry.2) []

/-- The entry of a line that says where it starts. -/
def lineEntryOf? (line : Value) : Except Fault (Option (Value × Value)) := do
  let start ← line.find "start" .null
  if start.isNull then return none
  let state ← line.find "state" .null
  checkPosition start
  return some (start, state)

/-- The states of a list of lines. -/
def ofLines (lines : Value) : Except Fault LineStates := do
  ofEntries (← (← lines.items).filterMapM lineEntryOf?)

/-- The last of the given positions that is not after `position`, up to the first that is. -/
def lastAtMost (position : Value) (best : Option Value) : List Value → Except Fault (Option Value)
  | [] => .ok best
  | key :: rest => do
    if ← key.atMost position then lastAtMost position (some key) rest else return best

/-- The nearest recorded position that is not after `position`. -/
def nearest? (states : LineStates) (position : Value) : Except Fault (Option Value) := do
  lastAtMost position none (← Sorting.sortM Value.less (states.map (·.1)))

/-- The nearest line at or before a position, and its state. -/
def lineAndState (states : LineStates) (position : Value) : Except Fault (Value × Value) := do
  match ← states.nearest? position with
  | none => return (.null, .null)
  | some line => return (line, (states.get? line).getD .null)

/-- The state recorded for a position, or that of the nearest line before it. -/
def state (states : LineStates) (position : Value) : Except Fault Value := do
  checkPosition position
  match states.get? position with
  | some state => return state
  | none => return (← states.lineAndState position).2

end LineStates

end ProofDump.Dataset
