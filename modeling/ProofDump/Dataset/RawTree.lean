import ProofDump.Value.Access

/-!
# Raw elaboration trees

A node of a raw elaboration tree is a table whose entry `children` holds the nodes below it. A
`RawTree` is such a value with the walk through it laid open: the node itself, the trees met below it,
and, where the walk cannot go on, the fault that ends it. The walk yields a node before it looks below
it, so a value that is no table is still yielded once.
-/

namespace ProofDump.Dataset

/-- A node, the trees below it, and the fault that ends the walk below it, if one does. -/
inductive RawTree where
  | node (value : Value) (children : List RawTree) (stop : Option Fault)

namespace RawTree

/-- A value that has nothing below it because it is no table. -/
def leaf (value : Value) : RawTree := node value [] (some (.noAttribute value.kind "get"))

mutual

/-- The tree of a node. -/
def ofValue : Value → RawTree
  | .obj fields =>
    let (children, stop) := underFields fields
    node (.obj fields) children stop
  | value => leaf value

/-- The trees of the nodes in a list. -/
def ofItems : List Value → List RawTree
  | [] => []
  | item :: rest => ofValue item :: ofItems rest

/-- What is below a table with these entries. -/
def underFields : List (String × Value) → List RawTree × Option Fault
  | [] => ([], none)
  | (name, value) :: rest =>
    if name = "children" then
      match value with
      | .arr items => (ofItems items, none)
      | .str s => (s.toList.map fun c => leaf (.str (String.ofList [c])), none)
      | .obj fields => (fields.map fun entry => leaf (.str entry.1), none)
      | other => ([], some (.notIterable other.kind))
    else underFields rest

end

mutual

/-- The nodes met on a walk in preorder, up to the fault that ends it, if one does. -/
def walk : RawTree → List Value × Option Fault
  | node value children stop =>
    let (values, fault) := walkAll children
    (value :: values, fault <|> stop)

/-- The nodes met on a walk through one tree after the other. -/
def walkAll : List RawTree → List Value × Option Fault
  | [] => ([], none)
  | tree :: rest =>
    match walk tree with
    | (values, some fault) => (values, some fault)
    | (values, none) =>
      let (others, fault) := walkAll rest
      (values ++ others, fault)

end

end RawTree

/-- All nodes of a tree in preorder. -/
def nodes (root : Value) : Except Fault (List Value) :=
  match (RawTree.ofValue root).walk with
  | (values, none) => .ok values
  | (_, some fault) => .error fault

/-- A node without the nodes below it. -/
def withoutChildren : Value → Value
  | .obj fields => .obj (Fields.erase fields "children")
  | other => other

end ProofDump.Dataset
