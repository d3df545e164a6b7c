import ProofDump.Position
import ProofDump.Text.Search
import ProofDump.Value.Order

/-!
# Info trees

A loaded info tree: every node has information, a reference into the source, and nodes below it. The
information and the reference stay loaded values, since most of them is only handed through. What
stands in the place of the nodes below may be no sequence, and what stands in the place of a node may
be no record; both are kept, because a fault arises only when somebody looks at them.
-/

namespace ProofDump

/-- A node with its information, its reference and the nodes below it, or a value that is no node.
Where the place of the nodes below holds no sequence, `unlisted` is what it holds. -/
inductive InfoTree where
  | node (info ref : Value) (children : List InfoTree) (unlisted : Option Value)
  | other (value : Value)

namespace InfoTree

/-- The letters of a text in the place of nodes. -/
def letters (text : String) : List InfoTree :=
  text.toList.map fun c => other (.str (String.ofList [c]))

mutual

/-- The tree of a loaded node. -/
def ofValue : Value → InfoTree
  | .obj fields =>
    let (children, unlisted) := underFields fields
    node ((Fields.get? fields "info").getD .null) ((Fields.get? fields "ref").getD .null)
      children unlisted
  | value => other value

/-- The trees of loaded nodes. -/
def ofItems : List Value → List InfoTree
  | [] => []
  | item :: rest => ofValue item :: ofItems rest

/-- What is below a record with these parts: the nodes, or what stands in their place. -/
def underFields : List (String × Value) → List InfoTree × Option Value
  | [] => ([], some .null)
  | (name, value) :: rest =>
    if name = "children" then
      match value with
      | .arr items => (ofItems items, none)
      | .str s => (letters s, none)
      | unlisted => ([], some unlisted)
    else underFields rest

end

/-- The trees in the place where a list of trees is expected. -/
def forest (value : Value) : Except Fault (List InfoTree) :=
  match value with
  | .arr items => .ok (ofItems items)
  | .str s => .ok (letters s)
  | unlisted => .error (.notIterable unlisted.loadedKind)

/-- The nodes below, when they are wanted whatever is there. -/
def allBelow (children : List InfoTree) (unlisted : Option Value) : Except Fault (List InfoTree) :=
  match unlisted with
  | none => .ok children
  | some value => .error (.notIterable value.loadedKind)

end InfoTree

/-- Whether a text is part of a loaded value: of a text, or as a member of a list. -/
def Value.hasText (value : Value) (part : String) : Except Fault Bool :=
  match value with
  | .str s => .ok (Text.contains part.toList s.toList)
  | .arr items => .ok (items.any (·.same (.str part)))
  | other => .error (.notContainer other.loadedKind)

end ProofDump
