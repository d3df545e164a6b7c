import Mathlib.Data.List.Infix
import ProofDump.InfoTree.Terms
import ProofDump.Proofs.Except
import ProofDump.Proofs.InfoTree.Forest
import ProofDump.Proofs.Text.Search

/-!
# A search lists every match once

A search lists a node up to twice: alone if it matches, and again with what it lists below it, so its result is
nested in another way than the forest. Read depth first, the result is the preorder of the forest, with every node
in it as often as it is listed (`listing_search`). Matches are the items with nothing below them, and all other
items are the nodes above matches.
-/

namespace ProofDump.InfoTree

/-! ### Nodes and what they show -/

/-- The text of the node contains the part. -/
def Shows (part : String) (tree : InfoTree) : Prop :=
  ∃ text, tree.text? = some text ∧ part.toList <:+: text.toList

/-- The text of a node below contains the part. -/
def ShowsBelow (part : String) (tree : InfoTree) : Prop := ∃ inner ∈ subtrees tree.children, inner.Shows part

theorem shows_iff {part : String} {tree : InfoTree} :
    tree.text?.any (fun text => Text.contains part.toList text.toList) = true ↔ tree.Shows part := by
  simp only [Option.any_eq_true, Text.contains_iff]
  rfl

instance (part : String) (tree : InfoTree) : Decidable (tree.Shows part) := decidable_of_iff _ shows_iff

instance (part : String) (tree : InfoTree) : Decidable (tree.ShowsBelow part) :=
  inferInstanceAs (Decidable (∃ inner ∈ _, _))

/-- A node that a search can look at: it has no reference or one with a text, and there is a list of nodes below it,
or nothing. -/
inductive IsSearchable : InfoTree → Prop
  | node {info ref : Value} {children : List InfoTree} {unlisted : Option Value}
      (href : ref.present = false ∨ ∃ text, ref.part "pp" = .str text)
      (hlisted : unlisted.filter Value.present = none) :
      IsSearchable (node info ref children unlisted)

def Searchable (forest : List InfoTree) : Prop := ∀ tree ∈ subtrees forest, tree.IsSearchable

theorem Searchable.cons {tree : InfoTree} {rest : List InfoTree} (hsearchable : Searchable (tree :: rest)) :
    tree.IsSearchable ∧ Searchable tree.children ∧ Searchable rest :=
  ⟨hsearchable tree (mem_subtrees_self tree rest),
    fun child hchild => hsearchable child (subtrees_children_subset tree rest hchild),
    fun other hother => hsearchable other (subtrees_tail_subset tree rest hother)⟩

theorem subtrees_trans {forest : List InfoTree} {tree inner : InfoTree} (htree : tree ∈ subtrees forest)
    (hinner : inner ∈ subtrees tree.children) : inner ∈ subtrees forest := by
  induction forest using forestInduction with
  | nil => exact absurd htree List.not_mem_nil
  | cons first rest below others =>
      rw [subtrees_cons, List.mem_cons, List.mem_append] at htree
      rcases htree with rfl | hbelow | hrest
      · exact subtrees_children_subset tree rest hinner
      · exact subtrees_children_subset first rest (below hbelow)
      · exact subtrees_tail_subset first rest (others hrest)

/-! ### Items of a result -/

namespace Found

def tree : Found → InfoTree
  | found tree _ => tree

def children : Found → List Found
  | found _ children => children

mutual

def itemsIn : Found → List Found
  | found tree children => found tree children :: items children

/-- The items of a nested result, depth first. -/
def items : List Found → List Found
  | [] => []
  | item :: rest => itemsIn item ++ items rest

end

theorem items_append (first second : List Found) : items (first ++ second) = items first ++ items second := by
  induction first with
  | nil => rfl
  | cons item rest ih => rw [List.cons_append, items, items, ih, List.append_assoc]

theorem items_singleton (tree : InfoTree) (children : List Found) :
    items [found tree children] = found tree children :: items children := by
  rw [items, itemsIn, items, List.append_nil]

theorem items_eq_nil_iff {found : List Found} : items found = [] ↔ found = [] := by
  cases found with
  | nil => exact iff_of_true rfl rfl
  | cons item rest =>
      obtain ⟨tree, children⟩ := item
      refine iff_of_false ?_ (List.cons_ne_nil _ _)
      rw [items, itemsIn, List.cons_append]
      exact List.cons_ne_nil _ _

/-- The node of an item, and whether it is listed as a match. -/
def listing (item : Found) : InfoTree × Bool := (item.tree, item.children.isEmpty)

end Found

/-! ### One node -/

theorem matchesText_of_absent {wanted ref : Value} (habsent : ref.present = false) :
    matchesText wanted ref = .ok false := by
  rw [matchesText, habsent]
  rfl

theorem matchesText_of_text {part text : String} {ref : Value} (htext : ref.part "pp" = .str text) :
    matchesText (.str part) ref = .ok (Text.contains part.toList text.toList) := by
  cases ref with
  | obj fields =>
      have hattr : (Value.obj fields).attr "pp" = .ok (.str text) := congrArg Except.ok htext
      rw [matchesText, hattr]
      rfl
  | _ => cases htext

theorem text?_eq_none {tree : InfoTree} (habsent : tree.ref.present = false) : tree.text? = none := by
  rw [text?]
  cases href : tree.ref with
  | obj fields =>
      rw [href] at habsent
      cases habsent
  | _ => rfl

theorem matchesText_eq_ok {tree : InfoTree} (part : String) (htree : tree.IsSearchable) :
    matchesText (.str part) tree.ref = .ok (decide (tree.Shows part)) := by
  have href : tree.ref.present = false ∨ ∃ text, tree.ref.part "pp" = .str text := by
    cases htree with
    | node href => exact href
  obtain habsent | ⟨text, htext⟩ := href
  · rw [matchesText_of_absent habsent, Except.ok.injEq, eq_comm, decide_eq_false_iff_not]
    rintro ⟨text, htext, -⟩
    rw [text?_eq_none habsent] at htext
    cases htext
  · have hshown : tree.text? = some text := congrArg Value.text? htext
    rw [matchesText_of_text htext, Except.ok.injEq, Bool.eq_iff_iff, decide_eq_true_iff, ← shows_iff, hshown,
      Option.any_some]

/-- What a search lists for a tree and the trees after it, from what it lists for the nodes below and for those. -/
theorem search_cons {part : String} {tree : InfoTree} {rest : List InfoTree} {below others : List Found}
    (htree : tree.IsSearchable) (hbelow : search (.str part) tree.children = .ok below)
    (hothers : search (.str part) rest = .ok others) :
    search (.str part) (tree :: rest) =
      .ok ((if tree.Shows part then [.found tree []] else []) ++
        (if below.isEmpty then [] else [.found tree below]) ++ others) := by
  have hmatch := matchesText_eq_ok part htree
  cases htree with
  | @node info ref children unlisted href hlisted =>
      replace hmatch : matchesText (.str part) ref = _ := hmatch
      replace hbelow : search (.str part) children = _ := hbelow
      rw [search, hmatch, ok_bind, hlisted]
      simp only [hbelow, hothers, ok_bind, decide_eq_true_eq]
      rfl

/-! ### Whole forests -/

/-- How a search lists a node: as a match, and as a node above one. -/
def listings (part : String) (tree : InfoTree) : List (InfoTree × Bool) :=
  (if tree.Shows part then [(tree, true)] else []) ++ if tree.ShowsBelow part then [(tree, false)] else []

theorem flatMap_listings_eq_nil_iff {part : String} {tree : InfoTree} :
    (subtrees tree.children).flatMap (listings part) = [] ↔ ¬ tree.ShowsBelow part := by
  rw [List.flatMap_eq_nil_iff]
  constructor
  · rintro hnil ⟨inner, hinner, hshows⟩
    have hlistings := hnil inner hinner
    rw [listings, if_pos hshows] at hlistings
    cases hlistings
  · intro hbelow inner hinner
    have hshows : ¬ inner.Shows part := fun hshows => hbelow ⟨inner, hinner, hshows⟩
    -- What is below a node that is below the tree is below the tree itself.
    have hinnerBelow : ¬ inner.ShowsBelow part := by
      rintro ⟨deeper, hdeeper, hshows⟩
      exact hbelow ⟨deeper, subtrees_trans hinner hdeeper, hshows⟩
    rw [listings, if_neg hshows, if_neg hinnerBelow]
    rfl

/-- What a search lists below a node, and the node with it. -/
theorem listing_nested {part : String} {tree : InfoTree} {below : List Found}
    (hbelow : (Found.items below).map Found.listing = (subtrees tree.children).flatMap (listings part)) :
    (Found.items (if below.isEmpty then [] else [.found tree below])).map Found.listing =
      (if tree.ShowsBelow part then [(tree, false)] else []) ++
        (subtrees tree.children).flatMap (listings part) := by
  have hempty : below = [] ↔ ¬ tree.ShowsBelow part := by
    rw [← flatMap_listings_eq_nil_iff, ← hbelow, List.map_eq_nil_iff, Found.items_eq_nil_iff]
  by_cases hshows : tree.ShowsBelow part
  · have hsome : below.isEmpty = false := by
      rw [← Bool.not_eq_true, List.isEmpty_iff, hempty]
      exact not_not_intro hshows
    rw [hsome, if_neg Bool.false_ne_true, if_pos hshows, Found.items_singleton, List.map_cons, hbelow,
      Found.listing, Found.children, hsome]
    rfl
  · rw [if_neg hshows, ← hbelow, hempty.2 hshows]
    rfl

/-- Read depth first, what a search lists is the preorder of the forest, with every node as it is listed. -/
theorem listing_search (part : String) {forest : List InfoTree} (hforest : Searchable forest) :
    ∃ found, search (.str part) forest = .ok found ∧
      (Found.items found).map Found.listing = (subtrees forest).flatMap (listings part) := by
  induction forest using forestInduction with
  | nil => exact ⟨[], by rw [search], rfl⟩
  | cons tree rest below others =>
      obtain ⟨htree, hbelow, hrest⟩ := hforest.cons
      obtain ⟨inner, hinner, hinnerItems⟩ := below hbelow
      obtain ⟨after, hafter, hafterItems⟩ := others hrest
      have hown : (Found.items (if tree.Shows part then [.found tree []] else [])).map Found.listing =
          if tree.Shows part then [(tree, true)] else [] := by
        split <;> rfl
      refine ⟨_, search_cons htree hinner hafter, ?_⟩
      -- A node with what is listed below it comes right before that, as it does in preorder.
      rw [Found.items_append, Found.items_append, List.map_append, List.map_append, hown,
        listing_nested hinnerItems, hafterItems, subtrees_cons, List.flatMap_cons, List.flatMap_append, listings]
      simp only [List.append_assoc]

/-! ### Matches and the nodes above them -/

theorem flatMap_ite_singleton {α : Type} (keeps : α → Prop) [DecidablePred keeps] (members : List α) :
    (members.flatMap fun a => if keeps a then [a] else []) = members.filter keeps := by
  induction members with
  | nil => rfl
  | cons a members ih =>
      rw [List.flatMap_cons, ih, List.filter_cons]
      by_cases hkeeps : keeps a <;> simp [hkeeps]

/-- The nodes of the items that are listed in one of the two ways are those that pass the test for it. -/
theorem map_tree_filter_items {part : String} {forest : List InfoTree} {found : List Found} (flag : Bool)
    (keeps : InfoTree → Prop) [DecidablePred keeps]
    (hfound : (Found.items found).map Found.listing = forest.flatMap (listings part))
    (hkeeps : ∀ tree, ((listings part tree).filter fun entry => entry.2 == flag).map Prod.fst =
      if keeps tree then [tree] else []) :
    ((Found.items found).filter fun item => item.children.isEmpty == flag).map Found.tree =
      forest.filter keeps := by
  calc ((Found.items found).filter fun item => item.children.isEmpty == flag).map Found.tree
    _ = (((Found.items found).map Found.listing).filter fun entry => entry.2 == flag).map Prod.fst := by
      rw [List.filter_map, List.map_map]
      rfl
    _ = forest.flatMap fun tree => ((listings part tree).filter fun entry => entry.2 == flag).map Prod.fst := by
      rw [hfound, List.filter_flatMap, List.map_flatMap]
    _ = forest.filter keeps := by
      simp only [hkeeps]
      exact flatMap_ite_singleton keeps forest

/-- In a forest whose references are absent or have texts, a search for a part comes to its end. The items with
nothing below them, read depth first, are the nodes whose texts contain the part, each once and in preorder, and the
items with something below them are the nodes with such a node below them, each once and in preorder. -/
theorem search_lists_matches_once (part : String) {forest : List InfoTree} (hforest : Searchable forest) :
    ∃ found, search (.str part) forest = .ok found ∧
      ((Found.items found).filter fun item => item.children.isEmpty).map Found.tree =
        (subtrees forest).filter (Shows part) ∧
      ((Found.items found).filter fun item => !item.children.isEmpty).map Found.tree =
        (subtrees forest).filter (ShowsBelow part) := by
  obtain ⟨found, hsearch, hfound⟩ := listing_search part hforest
  have hmatches := map_tree_filter_items true (Shows part) hfound fun tree => by
    rw [listings]
    split <;> split <;> rfl
  have hothers := map_tree_filter_items false (ShowsBelow part) hfound fun tree => by
    rw [listings]
    split <;> split <;> rfl
  simp only [beq_true, beq_false] at hmatches hothers
  exact ⟨found, hsearch, hmatches, hothers⟩

/-! ### A match above matches -/

def shownNode (text : String) (children : List InfoTree) : InfoTree :=
  node .null (.obj [("pp", .str text)]) children none

/-- A node without a reference, above two matches that are the same. -/
def hiddenNode : InfoTree := node .null .null [shownNode "ax" [], shownNode "ax" []] none

/-- A match above those, and above a node that shows something else. -/
def outerMatch : InfoTree := shownNode "x" [hiddenNode, shownNode "b" []]

theorem searchable_outerMatch : Searchable [outerMatch] := by
  have hnodes : subtrees [outerMatch] =
      [outerMatch, hiddenNode, shownNode "ax" [], shownNode "ax" [], shownNode "b" []] := rfl
  have hshown (text : String) (children : List InfoTree) : (shownNode text children).IsSearchable :=
    .node (.inr ⟨text, rfl⟩) rfl
  have hhidden : hiddenNode.IsSearchable := .node (.inl rfl) rfl
  rw [Searchable, hnodes]
  simp only [List.forall_mem_cons]
  exact ⟨hshown _ _, hhidden, hshown _ _, hshown _ _, hshown _ _, List.forall_mem_nil _⟩

theorem outerMatch_listed_once :
    Searchable [outerMatch] ∧ ∃ found, search (.str "x") [outerMatch] = .ok found ∧
      ((Found.items found).filter fun item => item.children.isEmpty).map Found.tree =
        [outerMatch, shownNode "ax" [], shownNode "ax" []] ∧
      ((Found.items found).filter fun item => !item.children.isEmpty).map Found.tree = [outerMatch, hiddenNode] :=
  ⟨searchable_outerMatch, search_lists_matches_once "x" searchable_outerMatch⟩

end ProofDump.InfoTree
