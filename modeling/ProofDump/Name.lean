import ProofDump.Text.Search
import ProofDump.Value.Access
import ProofDump.Value.Order
import ProofDump.Value.Report

/-!
# Names

A name is a sequence of parts, which are texts or numbers, and is written with dots between them. Names
that a compiler made up are told by numbers among their parts or by how their last part begins.
-/

namespace ProofDump.Name

/-- The parts of a written name. -/
def parse (text : String) : List String := Text.splitAt '.' text

/-- The parts of a written name; only a text is one. -/
def parseValue (value : Value) : Except Fault (List String) :=
  match value with
  | .str text => .ok (parse text)
  | other => .error (.noAttribute other.kind "split")

/-- A name as it is written. -/
def written (name : Value) : Except Fault String := do
  return ".".intercalate ((← name.items).map Value.reported)

/-- Whether a name begins with the parts of another. -/
def isBeginning (beginning name : Value) : Except Fault Bool := do
  let short ← beginning.length
  let long ← name.length
  if short ≤ long then
    return ((← beginning.items).zip (← name.items)).all fun (left, right) => left.same right
  else return false

/-- Whether parts that are no texts mark a name as made up. -/
inductive NumberRule where
  | counted
  | ignored
  deriving DecidableEq, Repr

/-- How the last part of a made-up name begins. -/
def internalStarts : List String := ["_", "eq_", "match_", "proof_"]

/-- Whether a name was made up by a compiler. -/
def isInternal (rule : NumberRule) (name : Value) : Except Fault Bool := do
  let parts ← name.items
  if rule = .counted && parts.any (·.text?.isNone) then return true
  match ← name.index (-1) with
  | .str last => return internalStarts.any fun start => Text.startsWith start.toList last.toList
  | other => throw (.noAttribute other.kind "startswith")

end ProofDump.Name
