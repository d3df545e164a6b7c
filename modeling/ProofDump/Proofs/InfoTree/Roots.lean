import Mathlib
import ProofDump.Proofs.Except
import ProofDump.Proofs.InfoTree.Steps
import ProofDump.Proofs.RangeOrder

/-!
# Roots in the order of the source

A list of trees that meets a tactic node ends there and stays unsorted, so what comes up from below need not
be in order. It is put in order by the list above, and the list above all others always ends with a sort if
none of its trees is a tactic. Which nodes become roots does not depend on the rule: `rootPlaces` lists them
with their addresses, and both rules make the same roots of them.
-/

namespace ProofDump

/-- Both roots have a range, and these stand in a relation. -/
def Root.Related (relation : FileRange → FileRange → Prop) (root other : Root) : Prop :=
  ∃ range otherRange, InfoTree.sortRange root = .ok range ∧ InfoTree.sortRange other = .ok otherRange ∧
    relation range otherRange

theorem Root.Related.imp {relation weaker : FileRange → FileRange → Prop}
    (himp : ∀ range other, relation range other → weaker range other) {root other : Root}
    (hrelated : root.Related relation other) : root.Related weaker other := by
  obtain ⟨range, otherRange, hrange, hother, hrelation⟩ := hrelated
  exact ⟨range, otherRange, hrange, hother, himp range otherRange hrelation⟩

namespace InfoTree

/-! ### Sorted roots -/

theorem sort_inOrder {α : Type} (rule : RootRule) (range : α → FileRange) (members : List α) :
    (Sorting.sort (fun a b => RootRule.before rule (range a) (range b)) members).Perm members ∧
      (Sorting.sort (fun a b => RootRule.before rule (range a) (range b)) members).Pairwise
        fun a b => rule.InOrder (range a) (range b) := by
  cases rule with
  | outerFirst =>
      have hsorted := FileRange.sort_outerBefore_isStableSort range members
      refine ⟨hsorted.perm.trans members.reverse_perm, hsorted.ordered.imp fun hle => ?_⟩
      exact FileRange.inOrder_outerFirst_iff.2 hle
  | innerFirst =>
      have hsorted := FileRange.sort_innerBefore_isStableSort range members
      refine ⟨hsorted.perm, hsorted.ordered.imp fun hle => ?_⟩
      exact FileRange.inOrder_innerFirst_iff.2 hle

theorem keyedRoots_eq_ok {found : List Root} {keyed : List (FileRange × Root)}
    (hkeyed : found.mapM (fun root => do return (← sortRange root, root)) = .ok keyed) :
    keyed.map Prod.snd = found ∧ ∀ pair ∈ keyed, sortRange pair.2 = .ok pair.1 := by
  induction mapM_eq_ok_iff.1 hkeyed with
  | nil => exact ⟨rfl, fun _ hpair => absurd hpair List.not_mem_nil⟩
  | cons hpair hrest ih =>
      obtain ⟨range, hrange, hpair⟩ := bind_eq_ok.1 hpair
      cases hpair
      obtain ⟨hroots, hranges⟩ := ih (mapM_eq_ok_iff.2 hrest)
      exact ⟨by rw [List.map_cons, hroots], List.forall_mem_cons.2 ⟨hrange, hranges⟩⟩

theorem sortRoots_eq_ok {rule : RootRule} {found sorted : List Root}
    (hsorted : sortRoots rule found = .ok sorted) :
    sorted.Perm found ∧ sorted.Pairwise (Root.Related rule.InOrder) := by
  obtain ⟨keyed, hkeyed, hsorted⟩ := bind_eq_ok.1 hsorted
  cases hsorted
  obtain ⟨hroots, hranges⟩ := keyedRoots_eq_ok hkeyed
  obtain ⟨hperm, horder⟩ := sort_inOrder rule Prod.fst keyed
  refine ⟨hroots ▸ hperm.map Prod.snd, List.pairwise_map.2 (horder.imp_of_mem ?_)⟩
  intro pair other hpair hother hbefore
  exact ⟨pair.1, other.1, hranges pair (hperm.mem_iff.1 hpair), hranges other (hperm.mem_iff.1 hother),
    hbefore⟩

/-! ### The nodes that become roots -/

/-- The node at an address: a place in the list of trees, then places among the nodes below. -/
def nodeAt? (forest : List InfoTree) : List Nat → Option InfoTree
  | [] => none
  | [place] => forest[place]?
  | place :: next :: rest => forest[place]?.bind fun tree => nodeAt? tree.children (next :: rest)

mutual

def rootPlacesBelow : InfoTree → List (List Nat × InfoTree)
  | other _ => []
  | node _ _ children _ => rootPlaces 0 children

/-- The tactic nodes that become roots, with their addresses. Siblings are counted from `first`, and those
after a tactic node are left out. -/
def rootPlaces (first : Nat) : List InfoTree → List (List Nat × InfoTree)
  | [] => []
  | tree :: rest =>
    if tree.isTactic then [([first], tree)]
    else (rootPlacesBelow tree).map (fun place => (first :: place.1, place.2)) ++
      rootPlaces (first + 1) rest

end

theorem rootPlaces_cons (first : Nat) (tree : InfoTree) (rest : List InfoTree) :
    rootPlaces first (tree :: rest) =
      if tree.isTactic then [([first], tree)]
      else (rootPlaces 0 tree.children).map (fun place => (first :: place.1, place.2)) ++
        rootPlaces (first + 1) rest := by
  cases tree with
  | node info ref children unlisted => rfl
  | other value => rfl

theorem nodeAt?_of_mem_rootPlaces {forest : List InfoTree} {first : Nat} {place : List Nat × InfoTree}
    (hplace : place ∈ rootPlaces first forest) :
    place.2.isTactic = true ∧ ∃ index rest, place.1 = (first + index) :: rest ∧
      nodeAt? forest (index :: rest) = some place.2 := by
  induction forest using forestInduction generalizing first place with
  | nil => exact absurd hplace List.not_mem_nil
  | cons tree rest below others =>
      rw [rootPlaces_cons] at hplace
      split at hplace
      · rename_i htactic
        rw [List.mem_singleton] at hplace
        subst hplace
        exact ⟨htactic, 0, [], rfl, rfl⟩
      · rcases List.mem_append.1 hplace with hbelow | hrest
        · obtain ⟨inner, hinner, rfl⟩ := List.mem_map.1 hbelow
          obtain ⟨htactic, index, path, haddress, hnode⟩ := below hinner
          refine ⟨htactic, 0, inner.1, rfl, ?_⟩
          rw [Nat.zero_add] at haddress
          rw [haddress, nodeAt?]
          exact hnode
        · obtain ⟨htactic, index, path, haddress, hnode⟩ := others hrest
          refine ⟨htactic, index + 1, path, by rw [haddress]; congr 1; omega, ?_⟩
          cases path with
          | nil => exact hnode
          | cons next path => exact hnode

theorem rootPlaces_pairwise (first : Nat) (forest : List InfoTree) :
    (rootPlaces first forest).Pairwise fun place other =>
      ¬ place.1 <+: other.1 ∧ ¬ other.1 <+: place.1 := by
  induction forest using forestInduction generalizing first with
  | nil => exact List.Pairwise.nil
  | cons tree rest below others =>
      rw [rootPlaces_cons]
      split
      · exact List.pairwise_singleton _ _
      · refine List.pairwise_append.2 ⟨List.pairwise_map.2 ?_, others (first + 1), ?_⟩
        · simpa only [List.prefix_cons_inj] using below 0
        · intro place hplace other hother
          obtain ⟨inner, -, rfl⟩ := List.mem_map.1 hplace
          obtain ⟨-, index, path, haddress, -⟩ := nodeAt?_of_mem_rootPlaces hother
          rw [haddress]
          constructor <;>
          · intro hfollows
            have hhead := (List.cons_prefix_cons.1 hfollows).1
            omega

/-! ### Collecting roots -/

/-- The root that a rule makes of a tactic node. -/
def rootOf (rule : RootRule) (lines : LineStarts) : InfoTree → Except Fault Root
  | other value => .error (.noAttribute value.kind "info")
  | node info ref children unlisted => root rule lines ref (info.part "tactic") children unlisted

theorem rootOf_eq_ok {rule : RootRule} {lines : LineStarts} {tree : InfoTree} {own : Root}
    (hown : rootOf rule lines tree = .ok own) :
    ∃ step below, tactic? lines tree.ref (tree.info.part "tactic") false none = .ok step ∧
      steps lines none tree.children = .ok below ∧ (rule = .outerFirst → step ≠ none) ∧
      own = ⟨step, some below⟩ := by
  cases tree with
  | other value => cases hown
  | node info ref children unlisted =>
      replace ⟨step, hstep, hown⟩ := bind_eq_ok.1 hown
      replace ⟨listed, hlisted, hown⟩ := bind_eq_ok.1 hown
      replace ⟨below, hbelow, hown⟩ := bind_eq_ok.1 hown
      have hlisted : children = listed := by
        cases unlisted with
        | some value => cases hlisted
        | none => exact Except.ok.inj hlisted
      subst hlisted
      refine ⟨step, below, hstep, hbelow, ?_⟩
      cases rule with
      | innerFirst =>
          cases hown
          exact ⟨fun hrule => RootRule.noConfusion hrule, rfl⟩
      | outerFirst =>
          cases step with
          | none => cases hown
          | some step =>
              cases hown
              exact ⟨fun _ => Option.some_ne_none step, rfl⟩

theorem rootsAfter_cons_eq_ok {rule : RootRule} {lines : LineStarts} {found result : List Root}
    {tree : InfoTree} {rest : List InfoTree}
    (hresult : rootsAfter rule lines found (tree :: rest) = .ok result) :
    (tree.isTactic = true ∧ ∃ own, rootOf rule lines tree = .ok own ∧ result = found ++ [own]) ∨
      (tree.isTactic = false ∧ ∃ below, rootsAfter rule lines [] tree.children = .ok below ∧
        rootsAfter rule lines (found ++ below) rest = .ok result) := by
  cases tree with
  | other value => rw [rootsAfter] at hresult; cases hresult
  | node info ref children unlisted =>
      rw [rootsAfter] at hresult
      split at hresult
      · cases hresult
      · rename_i part hpart
        have hsome := Value.presentAttr_eq_ok hpart
        split at hsome
        · rename_i htactic
          cases hsome
          refine .inl ⟨htactic, ?_⟩
          cases hown : root rule lines ref (info.part "tactic") children unlisted with
          | error fault => rw [hown] at hresult; cases hresult
          | ok own =>
              rw [hown] at hresult
              exact ⟨own, hown, (Except.ok.inj hresult).symm⟩
        · cases hsome
      · rename_i hpart
        have hnone := Value.presentAttr_eq_ok hpart
        split at hnone
        · cases hnone
        · rename_i htactic
          refine .inr ⟨Bool.eq_false_of_not_eq_true htactic, ?_⟩
          split at hresult
          · cases hresult
          · split at hresult
            · cases hresult
            · rename_i below hbelow
              exact ⟨below, hbelow, hresult⟩

theorem rootsAfter_eq_ok {rule : RootRule} {lines : LineStarts} {found result : List Root}
    {forest : List InfoTree} (hresult : rootsAfter rule lines found forest = .ok result) (first : Nat) :
    ∃ own, List.Forall₂ (fun place root => rootOf rule lines place.2 = .ok root)
        (rootPlaces first forest) own ∧ result.Perm (found ++ own) := by
  induction forest using forestInduction generalizing found result first with
  | nil =>
      refine ⟨[], List.Forall₂.nil, ?_⟩
      rw [rootsAfter] at hresult
      rw [List.append_nil]
      exact (sortRoots_eq_ok hresult).1
  | cons tree rest below others =>
      rw [rootPlaces_cons]
      rcases rootsAfter_cons_eq_ok hresult with ⟨htactic, own, hown, rfl⟩ | ⟨htactic, inner, hinner, hrest⟩
      · rw [if_pos htactic]
        exact ⟨[own], .cons hown .nil, List.Perm.refl _⟩
      · rw [htactic, if_neg Bool.false_ne_true]
        obtain ⟨ownBelow, hbelow, hbelowPerm⟩ := below hinner 0
        obtain ⟨ownRest, hothers, hrestPerm⟩ := others hrest (first + 1)
        refine ⟨ownBelow ++ ownRest, List.rel_append (List.forall₂_map_left_iff.2 hbelow) hothers, ?_⟩
        rw [← List.append_assoc]
        exact hrestPerm.trans ((hbelowPerm.append_left found).append_right ownRest)

/-- A list of trees that holds no tactic ends with a sort. -/
theorem rootsAfter_pairwise {rule : RootRule} {lines : LineStarts} {found result : List Root}
    {forest : List InfoTree} (hcommands : ∀ tree ∈ forest, tree.isTactic = false)
    (hresult : rootsAfter rule lines found forest = .ok result) :
    result.Pairwise (Root.Related rule.InOrder) := by
  induction forest generalizing found with
  | nil =>
      rw [rootsAfter] at hresult
      exact (sortRoots_eq_ok hresult).2
  | cons tree rest ih =>
      obtain ⟨hcommand, hrest⟩ := List.forall_mem_cons.1 hcommands
      rcases rootsAfter_cons_eq_ok hresult with ⟨htactic, -⟩ | ⟨-, below, -, hothers⟩
      · rw [htactic] at hcommand
        cases hcommand
      · exact ih hrest hothers

/-- The rule that requires a tactic makes no other root than the one that does not. -/
theorem rootOf_innerFirst {lines : LineStarts} {tree : InfoTree} {own : Root}
    (hown : rootOf .outerFirst lines tree = .ok own) : rootOf .innerFirst lines tree = .ok own := by
  cases tree with
  | other value => cases hown
  | node info ref children unlisted =>
      obtain ⟨step, hstep, hown⟩ := bind_eq_ok.1 hown
      obtain ⟨listed, hlisted, hown⟩ := bind_eq_ok.1 hown
      obtain ⟨below, hbelow, hown⟩ := bind_eq_ok.1 hown
      cases step with
      | none => cases hown
      | some step =>
          exact bind_eq_ok.2 ⟨_, hstep, bind_eq_ok.2 ⟨_, hlisted, bind_eq_ok.2 ⟨_, hbelow, hown⟩⟩⟩

theorem roots_perm {lines : LineStarts} {forest : List InfoTree} {outer inner : List Root}
    (houter : roots .outerFirst lines forest = .ok outer)
    (hinner : roots .innerFirst lines forest = .ok inner) : outer.Perm inner := by
  obtain ⟨own, hown, houterPerm⟩ := rootsAfter_eq_ok houter 0
  obtain ⟨other, hother, hinnerPerm⟩ := rootsAfter_eq_ok hinner 0
  have hsame : own = other :=
    List.right_unique_forall₂' (fun _ _ _ hfirst hsecond => Except.ok.inj (hfirst.symm.trans hsecond))
      (hown.imp fun _ _ => rootOf_innerFirst) hother
  rw [hsame] at houterPerm
  exact houterPerm.trans hinnerPerm.symm

/-- A root is made of the tactic node at an address of the forest. -/
def IsRootAt (lines : LineStarts) (forest : List InfoTree) (address : List Nat) (root : Root) : Prop :=
  ∃ tree, nodeAt? forest address = some tree ∧ tree.isTactic = true ∧
    rootOf .outerFirst lines tree = .ok root

theorem roots_addresses {lines : LineStarts} {forest : List InfoTree} {outer : List Root}
    (houter : roots .outerFirst lines forest = .ok outer) :
    ∃ addresses : List (List Nat), List.Forall₂ (IsRootAt lines forest) addresses outer ∧
      addresses.Pairwise fun address other => ¬ address <+: other ∧ ¬ other <+: address := by
  obtain ⟨own, hown, hperm⟩ := rootsAfter_eq_ok houter 0
  obtain ⟨places, hplaces, hsame⟩ := List.perm_comp_forall₂ hperm hown.flip
  have hnodes : ∀ place ∈ places, nodeAt? forest place.1 = some place.2 ∧ place.2.isTactic = true := by
    intro place hplace
    obtain ⟨htactic, index, rest, haddress, hnode⟩ := nodeAt?_of_mem_rootPlaces (hsame.mem_iff.1 hplace)
    rw [Nat.zero_add] at haddress
    exact ⟨haddress ▸ hnode, htactic⟩
  refine ⟨places.map Prod.fst, List.forall₂_map_left_iff.2 ?_, List.pairwise_map.2 ?_⟩
  · refine ((List.forall₂_and_left _ _).2 ⟨hnodes, hplaces.flip⟩).imp ?_
    rintro place own ⟨⟨hnode, htactic⟩, hown⟩
    exact ⟨place.2, hnode, htactic, hown⟩
  · exact (hsame.pairwise_iff And.symm).2 (rootPlaces_pairwise 0 forest)

theorem eq_of_distinct_starts {outer inner : List Root} (hperm : outer.Perm inner)
    (houter : outer.Pairwise (Root.Related RootRule.outerFirst.InOrder))
    (hinner : inner.Pairwise (Root.Related RootRule.innerFirst.InOrder))
    (hstarts : outer.Pairwise (Root.Related fun range other => range.start ≠ other.start)) :
    outer = inner := by
  have hsymm : Std.Symm (Root.Related fun range other => range.start ≠ other.start) :=
    ⟨fun _ _ ⟨range, otherRange, hrange, hother, hne⟩ => ⟨otherRange, range, hother, hrange, hne.symm⟩⟩
  have hantisymm (root other : Root) (hroot : root ∈ outer) (hother : other ∈ inner)
      (hle : root.Related (fun range other => range.start ≤ other.start) other)
      (hge : other.Related (fun range other => range.start ≤ other.start) root) : root = other := by
    by_contra hdistinct
    obtain ⟨range, otherRange, hrange, hotherRange, hne⟩ :=
      hstarts.forall hroot (hperm.mem_iff.2 hother) hdistinct
    obtain ⟨_, _, hrange', hother', hle⟩ := hle
    cases hrange.symm.trans hrange'
    cases hotherRange.symm.trans hother'
    obtain ⟨_, _, hother', hrange', hge⟩ := hge
    cases hrange.symm.trans hrange'
    cases hotherRange.symm.trans hother'
    exact hne (le_antisymm hle hge)
  apply List.Perm.eq_of_pairwise hantisymm _ _ hperm
  · exact houter.imp fun horder => horder.imp fun _ _ => RootRule.InOrder.start_le
  · exact hinner.imp fun horder => horder.imp fun _ _ => RootRule.InOrder.start_le

/-- Where both rules find the roots of a forest of commands, each lists them in its order, they list the same
roots, and in the same order if no two start together. The roots are made of tactic nodes at addresses none of
which is another one or leads to another one. -/
theorem roots_in_source_order {lines : LineStarts} {forest : List InfoTree} {outer inner : List Root}
    (hcommands : ∀ tree ∈ forest, tree.isTactic = false)
    (houter : roots .outerFirst lines forest = .ok outer)
    (hinner : roots .innerFirst lines forest = .ok inner) :
    outer.Pairwise (Root.Related RootRule.outerFirst.InOrder) ∧
      inner.Pairwise (Root.Related RootRule.innerFirst.InOrder) ∧
      outer.Perm inner ∧
      (∃ addresses : List (List Nat), List.Forall₂ (IsRootAt lines forest) addresses outer ∧
        addresses.Nodup ∧
        addresses.Pairwise fun address other => ¬ address <+: other ∧ ¬ other <+: address) ∧
      (outer.Pairwise (Root.Related fun range other => range.start ≠ other.start) → outer = inner) := by
  have houterOrder := rootsAfter_pairwise hcommands houter
  have hinnerOrder := rootsAfter_pairwise hcommands hinner
  have hperm := roots_perm houter hinner
  obtain ⟨addresses, hroots, hapart⟩ := roots_addresses houter
  refine ⟨houterOrder, hinnerOrder, hperm, ⟨addresses, hroots, ?_, hapart⟩,
    eq_of_distinct_starts hperm houterOrder hinnerOrder⟩
  refine hapart.imp fun hincomparable heq => hincomparable.1 ?_
  rw [heq]

def commandNode (children : List InfoTree) : InfoTree := node .null .null children none

/-- Two commands, the first of which holds a later tactic than the second. The second holds two tactics with one
start, the shorter one first, and one tactic below the longer one. -/
def tangledCommands : List InfoTree :=
  [commandNode [tacticNode (.str "rfl") ⟨30, 33⟩ []],
    commandNode [commandNode [tacticNode (.str "simp") ⟨5, 9⟩ []],
      tacticNode (.str "simp; rfl") ⟨5, 14⟩ [tacticNode (.str "rfl") ⟨11, 14⟩ []]]]

def simpRoot : Root := ⟨some ⟨⟨⟨1, 6⟩, ⟨1, 10⟩⟩, .str "simp", .arr [], .arr []⟩, some []⟩

def joinedRoot : Root :=
  ⟨some ⟨⟨⟨1, 6⟩, ⟨1, 15⟩⟩, .str "simp; rfl", .arr [], .arr []⟩,
    some [⟨⟨⟨1, 12⟩, ⟨1, 15⟩⟩, .str "rfl", .arr [], .arr []⟩]⟩

def laterRoot : Root := ⟨some ⟨⟨⟨2, 11⟩, ⟨2, 14⟩⟩, .str "rfl", .arr [], .arr []⟩, some []⟩

theorem tangledCommands_in_source_order :
    (∀ tree ∈ tangledCommands, tree.isTactic = false) ∧
      roots .outerFirst ⟨[0, 20], []⟩ tangledCommands = .ok [joinedRoot, simpRoot, laterRoot] ∧
      roots .innerFirst ⟨[0, 20], []⟩ tangledCommands = .ok [simpRoot, joinedRoot, laterRoot] ∧
      [joinedRoot, simpRoot, laterRoot].Pairwise (Root.Related RootRule.outerFirst.InOrder) ∧
      [simpRoot, joinedRoot, laterRoot].Pairwise (Root.Related RootRule.innerFirst.InOrder) ∧
      ∃ addresses : List (List Nat),
        List.Forall₂ (IsRootAt ⟨[0, 20], []⟩ tangledCommands) addresses [joinedRoot, simpRoot, laterRoot] ∧
        addresses.Nodup := by
  have hcommands : ∀ tree ∈ tangledCommands, tree.isTactic = false := by
    decide
  have houter : roots .outerFirst ⟨[0, 20], []⟩ tangledCommands = .ok [joinedRoot, simpRoot, laterRoot] := by
    cbv
  have hinner : roots .innerFirst ⟨[0, 20], []⟩ tangledCommands = .ok [simpRoot, joinedRoot, laterRoot] := by
    cbv
  obtain ⟨houterOrder, hinnerOrder, -, ⟨addresses, hroots, hnodup, -⟩, -⟩ :=
    roots_in_source_order hcommands houter hinner
  exact ⟨hcommands, houter, hinner, houterOrder, hinnerOrder, addresses, hroots, hnodup⟩

end InfoTree

end ProofDump
