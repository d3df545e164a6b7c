import ProofDump.Text.Halves
import ProofDump.Text.Search
import ProofDump.Value.Access

/-!
# Names of declarations in syntax trees

The name of a declaration is the first word in its syntax node that is no keyword and no annotation: the
raw text of the node itself, of its atom or of its identifier, looked for first among the arguments of
a node and then in its other parts.
-/

namespace ProofDump.Ast

/-- The name of a node in which none is found. -/
def unknown : String := "Unknown"

/-- Words that are never the name of a declaration. -/
def keywords : List String :=
  ["theorem", "lemma", "def", "instance", "namespace", "section", "protected", "private", "open",
   "variable"]

/-- A value, or that of an entry of another entry when it does not count as present. -/
def orEntry (value : Value) (fields : Fields) (outer inner : String) : Except Fault Value :=
  if value.truthy then .ok value
  else match Fields.get? fields outer with
    | some entry => entry.find inner .null
    | none => .ok value

/-- The text that a node shows. -/
def shownWord (fields : Fields) : Except Fault Value := do
  let raw := (Fields.get? fields "rawVal").getD .null
  let atom ← orEntry raw fields "atom" "val"
  orEntry atom fields "ident" "rawVal"

/-- The name that a word is, unless it is a keyword or an annotation. -/
def nameOfWord? (word : Value) : Except Fault (Option String) :=
  if !word.truthy then .ok none
  else match word with
    | .str s =>
      if keywords.contains s || Text.startsWith ['@'] s.toList then .ok none
      else .ok (some (String.ofList (Text.release s.toList)))
    | .arr _ => .error (.unhashable word.kind)
    | .obj _ => .error (.unhashable word.kind)
    | other => .error (.noAttribute other.kind "startswith")

/-- The name that a node itself shows. -/
def ownName? (fields : Fields) : Except Fault (Option String) := do
  nameOfWord? (← shownWord fields)

mutual

/-- The first name in a node. -/
def nameIn : Value → Except Fault (Option String)
  | .obj fields => do
    match ← ownName? fields with
    | some name => return some name
    | none =>
      match ← nameInArguments fields with
      | some name => return some name
      | none => nameInParts fields
  | _ => .ok none

/-- The first name among the arguments of a node with these entries. -/
def nameInArguments : List (String × Value) → Except Fault (Option String)
  | [] => .ok none
  | (key, value) :: rest =>
    if key = "args" then
      match value with
      | .arr items => nameInItems items
      | .str _ => .ok none
      | .obj _ => .ok none
      | other => .error (.notIterable other.kind)
    else nameInArguments rest

/-- The first name in a list of nodes. -/
def nameInItems : List Value → Except Fault (Option String)
  | [] => .ok none
  | item :: rest => do
    match ← nameIn item with
    | some name => return some name
    | none => nameInItems rest

/-- The first name in the tables under these entries, arguments and information apart. -/
def nameInParts : List (String × Value) → Except Fault (Option String)
  | [] => .ok none
  | (key, value) :: rest => do
    if key = "args" ∨ key = "info" then nameInParts rest
    else match ← nameIn value with
      | some name => return some name
      | none => nameInParts rest

end

/-- The name of the declaration in a node. -/
def nameOf (node : Value) : Except Fault String := do
  return (← nameIn node).getD unknown

end ProofDump.Ast
