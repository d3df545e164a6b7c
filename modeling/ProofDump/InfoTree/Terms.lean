import ProofDump.InfoTree.Basic

/-!
# Terms in info trees

The terms of a forest are the identifiers with a type of their own and no expected one; below such a
node nothing is looked for. They are listed in preorder, up to the fault that ends the walk, if one
does.
-/

namespace ProofDump

/-- An identifier: its range, its text and its type. -/
structure Term where
  range : FileRange
  ident : Value
  type : Value

namespace InfoTree

/-- The term that a node itself is, if it is one. -/
def term? (lines : LineStarts) (info ref : Value) : Except Fault (Option Term) := do
  match ← info.presentAttr "term" with
  | none => return none
  | some term =>
    let kind ← ref.attr "kind"
    if !kind.same (.arr [.str "ident"]) then return none
    if !(← term.attr "expected_type").isNull then return none
    let range ← FileRange.ofValue lines (← ref.attr "range")
    return some ⟨range, ← term.attr "value", ← term.attr "type"⟩

/-- The terms of a list of trees, and the fault that ends the walk, if one does. -/
def terms (lines : LineStarts) : List InfoTree → List Term × Option Fault
  | [] => ([], none)
  | other value :: _ => ([], some (.noAttribute value.kind "info"))
  | node info ref children unlisted :: rest =>
    match term? lines info ref with
    | .error fault => ([], some fault)
    | .ok (some term) =>
      let (others, fault) := terms lines rest
      (term :: others, fault)
    | .ok none =>
      match unlisted.filter Value.present with
      | some value => ([], some (.notIterable value.loadedKind))
      | none =>
        match terms lines children with
        | (below, some fault) => (below, some fault)
        | (below, none) =>
          let (others, fault) := terms lines rest
          (below ++ others, fault)
termination_by trees => sizeOf trees
decreasing_by
  all_goals
    simp only [List.cons.sizeOf_spec, node.sizeOf_spec]
    omega

/-- A node that a search lists: alone, because it matches, or with what the search lists below it. -/
inductive Found where
  | found (tree : InfoTree) (children : List Found)

/-- Whether the text of a node's reference contains the wanted one. -/
def matchesText (wanted : Value) (ref : Value) : Except Fault Bool := do
  if !ref.present then return false
  let pp ← ref.attr "pp"
  match pp, wanted with
  | .str text, .str part => return Text.contains part.toList text.toList
  | .str _, _ => throw (.notSearchable wanted.kind)
  | .arr items, _ => return items.any (·.sameMember wanted)
  | _, _ => throw (.notContainer pp.loadedKind)

/-- All nodes whose text contains the wanted one, with their places in the forest: a node with matches
below it is listed once more, with them. -/
def search (wanted : Value) : List InfoTree → Except Fault (List Found)
  | [] => .ok []
  | other value :: _ => .error (.noAttribute value.kind "ref")
  | node info ref children unlisted :: rest => do
    let tree := node info ref children unlisted
    let own := if ← matchesText wanted ref then [.found tree []] else []
    match unlisted.filter Value.present with
    | some value => throw (.notIterable value.loadedKind)
    | none =>
      let below ← search wanted children
      let nested := if below.isEmpty then [] else [.found tree below]
      return own ++ nested ++ (← search wanted rest)

end InfoTree

/-- The first term with the given text within a range. -/
def findTerm (range : FileRange) (ident : Value) (terms : List Term) : Option Term :=
  terms.find? fun term => range.covers term.range && term.ident.same ident

end ProofDump
