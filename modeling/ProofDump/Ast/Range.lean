import ProofDump.Value.Access
import ProofDump.Value.Integer

/-!
# Source ranges of syntax nodes

A part of a syntax tree records source positions in many places: in entries of its own, or in the
account of its source text attached to it. The range of a part runs from the least to the greatest position
recorded anywhere in it.
-/

namespace ProofDump.Ast

/-- The entries that hold a position. -/
def positionNames : List String := ["pos", "endPos", "bytePos", "byteEndPos"]

/-- A number as a position. -/
def numberPosition? : Value → Except Fault (Option Int)
  | .int n => .ok (some n)
  | .bool b => .ok (some b.toNat)
  | .dec d => some <$> Value.toInteger (.dec d)
  | _ => .ok none

/-- The positions in entries of a table. -/
def entryPositions (fields : Fields) : Except Fault (List Int) :=
  positionNames.filterMapM fun name =>
    numberPosition? ((Fields.get? fields name).getD .null)

/-- The positions in the account of its source text attached to a table. -/
def attachedPositions (fields : Fields) : Except Fault (List Int) :=
  match Fields.get? fields "info" with
  | some (.obj info) =>
    match Fields.get? info "original" with
    | some (.obj account) =>
      match Fields.get? account "pos", Fields.get? account "endPos" with
      | none, _ => .ok []
      | some start, none => do return [← start.toInteger]
      | some start, some stop => do return [← start.toInteger, ← stop.toInteger]
    | _ => .ok []
  | _ => .ok []

mutual

/-- All positions recorded in a value. -/
def positions : Value → Except Fault (List Int)
  | .obj fields => do
    let own ← entryPositions fields
    let attached ← attachedPositions fields
    return own ++ attached ++ (← fieldPositions fields)
  | .arr items => itemPositions items
  | _ => .ok []

/-- All positions recorded in the members of a list. -/
def itemPositions : List Value → Except Fault (List Int)
  | [] => .ok []
  | item :: rest => do return (← positions item) ++ (← itemPositions rest)

/-- All positions recorded in the entries of a table. -/
def fieldPositions : List (String × Value) → Except Fault (List Int)
  | [] => .ok []
  | (_, value) :: rest => do return (← positions value) ++ (← fieldPositions rest)

end

/-- From the least to the greatest of some positions. -/
def span? (positions : List Int) : Option (Int × Int) := do
  return (← positions.min?, ← positions.max?)

/-- The range of a part of a syntax tree, if it records a position. -/
def range? (value : Value) : Except Fault (Option (Int × Int)) := do
  return span? (← positions value)

end ProofDump.Ast
