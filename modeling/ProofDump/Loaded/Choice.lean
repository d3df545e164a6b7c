import ProofDump.Value.Access

/-!
# Choices between parts

Some records have exactly one of several parts. A strict check looks at the parts themselves. The loose
check hands over the look-up of the parts in their place. That is one thing, and it is always there, so
the check accepts every record.
-/

namespace ProofDump.Loaded

/-- Whether exactly one of several things is there. -/
def exactlyOne {α : Type} (isThere : α → Bool) (things : List α) : Bool :=
  (things.filter isThere).length == 1

/-- Whether exactly one of the values is there. -/
def isChoice (values : List Value) : Bool := exactlyOne (fun value => !value.isNull) values

/-- What is said of a record that does not have exactly one of the named parts. -/
def choiceReason (names : List String) : String :=
  "exactly one of [" ++ ", ".intercalate names ++ "] is expected"

/-- Insist that a record has exactly one of the named parts. -/
def checkChoice (record : Value) (names : List String) : Except Fault Unit := do
  let values ← names.mapM record.attr
  if isChoice values then return () else throw (.refused (choiceReason names))

/-- A part of a record by a name that should be a text. -/
def namedPart (record name : Value) : Except Fault Value :=
  match name with
  | .str name => record.attr name
  | other => .error (.badArgument ("attribute name must be string, not '" ++ other.kind ++ "'"))

/-- Insist that there is exactly one look-up of the named parts of a record. The look-up is never made,
so nothing is asked of the parts. -/
def looseCheck (record names : Value) : Except Fault Unit := do
  let names ← names.items
  let lookUp : Unit → Except Fault (List Value) := fun _ => names.mapM (namedPart record)
  if exactlyOne (fun _ => true) [lookUp] then return ()
  else throw (.refusedKind (choiceReason (← Value.textsFrom 0 names)))

/-- The parts of something that is open. -/
def openParts : List String := ["simple", "rename"]

/-- The parts of a special value. -/
def specialParts : List String := ["const", "fvar"]

/-- The parts of the information of a node. -/
def infoParts : List String := ["term", "tactic", "macro", "simple"]

end ProofDump.Loaded
