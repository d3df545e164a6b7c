import ProofDump.Proofs.InfoTree.Typed

/-!
# Tactics that no root stands for

A tactic node with no tactic above it should become a root. The collection of a list of trees ends at its
first tactic, though, so what stands behind a tactic among its siblings is passed over, and with it everything
below. `mem_rootPlaces_iff` says that nothing else is: the roots are made of the outermost tactics that are not
passed over, each of one. All outermost tactics are represented exactly if none is passed over
(`outermost_represented_iff`).
-/

namespace ProofDump.InfoTree

/-- The node at an address is a tactic, and no node on the way to it is one. -/
inductive IsOutermostAt : List InfoTree → List Nat → InfoTree → Prop
  | here {forest : List InfoTree} {index : Nat} {tree : InfoTree} (hnode : forest[index]? = some tree)
      (htactic : tree.isTactic = true) : IsOutermostAt forest [index] tree
  | inside {forest : List InfoTree} {index : Nat} {path : List Nat} {outer tree : InfoTree}
      (hnode : forest[index]? = some outer) (hcommand : outer.isTactic = false)
      (hinner : IsOutermostAt outer.children path tree) : IsOutermostAt forest (index :: path) tree

/-- A node on the way to an address, the last one included, has a tactic among its earlier siblings. -/
inductive PassedOver : List InfoTree → List Nat → Prop
  | here {forest : List InfoTree} {earlier index : Nat} {path : List Nat} {sibling : InfoTree}
      (hearlier : earlier < index) (hnode : forest[earlier]? = some sibling)
      (htactic : sibling.isTactic = true) : PassedOver forest (index :: path)
  | inside {forest : List InfoTree} {index : Nat} {path : List Nat} {outer : InfoTree}
      (hnode : forest[index]? = some outer) (hinner : PassedOver outer.children path) :
      PassedOver forest (index :: path)

section Addresses

variable {tree found : InfoTree} {rest : List InfoTree} {index : Nat} {path : List Nat}

theorem isOutermostAt_nil : ¬ IsOutermostAt [] path found := by
  rintro (⟨hnode, -⟩ | ⟨hnode, -, -⟩) <;> cases hnode

theorem isOutermostAt_zero_iff :
    IsOutermostAt (tree :: rest) (0 :: path) found ↔
      tree.isTactic = true ∧ path = [] ∧ found = tree ∨
        tree.isTactic = false ∧ IsOutermostAt tree.children path found := by
  constructor
  · intro houtermost
    cases houtermost with
    | here hnode htactic =>
        cases hnode
        exact .inl ⟨htactic, rfl, rfl⟩
    | inside hnode hcommand hinner =>
        cases hnode
        exact .inr ⟨hcommand, hinner⟩
  · rintro (⟨htactic, rfl, rfl⟩ | ⟨hcommand, hinner⟩)
    · exact .here rfl htactic
    · exact .inside rfl hcommand hinner

theorem isOutermostAt_succ_iff :
    IsOutermostAt (tree :: rest) ((index + 1) :: path) found ↔ IsOutermostAt rest (index :: path) found := by
  constructor
  · intro houtermost
    cases houtermost with
    | here hnode htactic => exact .here hnode htactic
    | inside hnode hcommand hinner => exact .inside hnode hcommand hinner
  · intro houtermost
    cases houtermost with
    | here hnode htactic => exact .here hnode htactic
    | inside hnode hcommand hinner => exact .inside hnode hcommand hinner

theorem isOutermostAt_cons_iff :
    IsOutermostAt (tree :: rest) path found ↔
      tree.isTactic = true ∧ path = [0] ∧ found = tree ∨
        (∃ inner, path = 0 :: inner ∧ tree.isTactic = false ∧ IsOutermostAt tree.children inner found) ∨
        ∃ index inner, path = (index + 1) :: inner ∧ IsOutermostAt rest (index :: inner) found := by
  cases path with
  | nil =>
      refine iff_of_false ?_ (by simp)
      intro houtermost
      cases houtermost
  | cons index inner =>
      cases index with
      | zero => simp [isOutermostAt_zero_iff]
      | succ index => simp [isOutermostAt_succ_iff]

theorem not_passedOver_nil : ¬ PassedOver rest [] := by
  intro hpassed
  cases hpassed

theorem passedOver_zero_iff :
    PassedOver (tree :: rest) (0 :: path) ↔ PassedOver tree.children path := by
  constructor
  · intro hpassed
    cases hpassed with
    | here hearlier hnode htactic => exact absurd hearlier (Nat.not_lt_zero _)
    | inside hnode hinner =>
        cases hnode
        exact hinner
  · exact .inside rfl

theorem passedOver_succ_iff :
    PassedOver (tree :: rest) ((index + 1) :: path) ↔
      tree.isTactic = true ∨ PassedOver rest (index :: path) := by
  constructor
  · intro hpassed
    cases hpassed with
    | @here _ earlier _ _ sibling hearlier hnode htactic =>
        cases earlier with
        | zero =>
            cases hnode
            exact .inl htactic
        | succ earlier => exact .inr (.here (Nat.lt_of_succ_lt_succ hearlier) hnode htactic)
    | inside hnode hinner => exact .inr (.inside hnode hinner)
  · rintro (htactic | hpassed)
    · exact .here (Nat.succ_pos index) rfl htactic
    · cases hpassed with
      | here hearlier hnode htactic => exact .here (Nat.succ_lt_succ hearlier) hnode htactic
      | inside hnode hinner => exact .inside hnode hinner

end Addresses

/-- The node at an address is an outermost tactic, and the collection comes to it. -/
def IsReachedAt (forest : List InfoTree) (address : List Nat) (tree : InfoTree) : Prop :=
  IsOutermostAt forest address tree ∧ ¬ PassedOver forest address

theorem isReachedAt_zero_iff {tree found : InfoTree} {rest : List InfoTree} {path : List Nat} :
    IsReachedAt (tree :: rest) (0 :: path) found ↔
      tree.isTactic = true ∧ path = [] ∧ found = tree ∨
        tree.isTactic = false ∧ IsReachedAt tree.children path found := by
  rw [IsReachedAt, IsReachedAt, isOutermostAt_zero_iff, passedOver_zero_iff, or_and_right]
  refine or_congr ⟨And.left, fun hfirst => ⟨hfirst, ?_⟩⟩ and_assoc
  rw [hfirst.2.1]
  exact not_passedOver_nil

theorem isReachedAt_succ_iff {tree found : InfoTree} {rest : List InfoTree} {index : Nat} {path : List Nat} :
    IsReachedAt (tree :: rest) ((index + 1) :: path) found ↔
      tree.isTactic = false ∧ IsReachedAt rest (index :: path) found := by
  rw [IsReachedAt, IsReachedAt, isOutermostAt_succ_iff, passedOver_succ_iff, not_or, Bool.not_eq_true]
  exact and_left_comm

theorem exists_index_iff {forest : List InfoTree} {address : List Nat} {found : InfoTree} :
    (∃ index path, address = (0 + index) :: path ∧ IsReachedAt forest (index :: path) found) ↔
      IsReachedAt forest address found := by
  constructor
  · rintro ⟨index, path, rfl, hreached⟩
    rwa [Nat.zero_add]
  · intro hreached
    cases address with
    | nil => cases hreached.1
    | cons index path => exact ⟨index, path, by rw [Nat.zero_add], hreached⟩

theorem mem_rootPlaces_from_iff {first : Nat} {forest : List InfoTree} {address : List Nat}
    {found : InfoTree} :
    (address, found) ∈ rootPlaces first forest ↔
      ∃ index path, address = (first + index) :: path ∧ IsReachedAt forest (index :: path) found := by
  induction forest using forestInduction generalizing first address with
  | nil =>
      refine iff_of_false List.not_mem_nil ?_
      rintro ⟨index, path, -, houtermost, -⟩
      exact isOutermostAt_nil houtermost
  | cons tree rest below others =>
      rw [rootPlaces_cons]
      -- A tactic hides the trees after it. A command hides neither them nor what is below it.
      cases htactic : tree.isTactic with
      | true =>
          rw [if_pos rfl, List.mem_singleton, Prod.mk.injEq]
          constructor
          · rintro ⟨rfl, rfl⟩
            exact ⟨0, [], rfl, isReachedAt_zero_iff.2 (.inl ⟨htactic, rfl, rfl⟩)⟩
          · rintro ⟨index, path, rfl, hreached⟩
            cases index with
            | zero =>
                rcases isReachedAt_zero_iff.1 hreached with ⟨-, rfl, rfl⟩ | ⟨hcommand, -⟩
                · exact ⟨rfl, rfl⟩
                · cases htactic.symm.trans hcommand
            | succ index => cases htactic.symm.trans (isReachedAt_succ_iff.1 hreached).1
      | false =>
          rw [if_neg Bool.false_ne_true, List.mem_append, others, List.mem_map]
          constructor
          · rintro (⟨⟨path, inner⟩, hinner, hplace⟩ | ⟨index, path, rfl, hreached⟩)
            · cases hplace
              have hreached := exists_index_iff.1 (below.1 hinner)
              exact ⟨0, path, rfl, isReachedAt_zero_iff.2 (.inr ⟨htactic, hreached⟩)⟩
            · exact ⟨index + 1, path, by rw [Nat.add_assoc, Nat.add_comm 1],
                isReachedAt_succ_iff.2 ⟨htactic, hreached⟩⟩
          · rintro ⟨index, path, rfl, hreached⟩
            cases index with
            | zero =>
                rcases isReachedAt_zero_iff.1 hreached with ⟨hfirst, -⟩ | ⟨-, hinner⟩
                · cases htactic.symm.trans hfirst
                · exact .inl ⟨(path, found), below.2 (exists_index_iff.2 hinner), rfl⟩
            | succ index =>
                exact .inr ⟨index, path, by rw [Nat.add_assoc, Nat.add_comm 1],
                  (isReachedAt_succ_iff.1 hreached).2⟩

/-- The tactic nodes that become roots are those that the collection comes to. -/
theorem mem_rootPlaces_iff {forest : List InfoTree} {address : List Nat} {found : InfoTree} :
    (address, found) ∈ rootPlaces 0 forest ↔ IsReachedAt forest address found :=
  mem_rootPlaces_from_iff.trans exists_index_iff

/-! ### What roots are made of -/

/-- The root has the text, the range and the goals of a tactic node, and the steps below it. -/
structure IsRootOf (lines : LineStarts) (tree : InfoTree) (step : Tactic) (below : List Tactic) : Prop where
  text : step.pp = tree.ref.part "pp"
  range : FileRange.ofValue lines (tree.ref.part "range") = .ok step.range
  before : goalTexts ((tree.info.part "tactic").part "before") = .ok step.before
  after : goalTexts ((tree.info.part "tactic").part "after") = .ok step.after
  steps : InfoTree.steps lines none tree.children = .ok below

/-- The root stands for a tactic node. -/
def StandsFor (lines : LineStarts) (tree : InfoTree) (root : Root) : Prop :=
  ∃ step below, root = ⟨some step, some below⟩ ∧ IsRootOf lines tree step below

theorem tactic?_eq_none {lines : LineStarts} {ref part : Value}
    (hnone : tactic? lines ref part false none = .ok none) : ref.part "pp" = .str "by" := by
  cases answers_of_tactic? hnone with
  | several hsingle hcompound => cases hsingle
  | covered hrange hgiven hcovers => cases hgiven
  | word hby => exact hby

theorem standsFor_of_rootOf {rule : RootRule} {lines : LineStarts} {tree : InfoTree} {own : Root}
    (hown : rootOf rule lines tree = .ok own) (htext : tree.ref.part "pp" ≠ .str "by") :
    StandsFor lines tree own := by
  obtain ⟨step, below, hstep, hbelow, -, rfl⟩ := rootOf_eq_ok hown
  cases step with
  | none => exact absurd (tactic?_eq_none hstep) htext
  | some step =>
      cases answers_of_tactic? hstep with
      | taken hsimple hrange hby hbefore hafter => exact ⟨_, below, rfl, rfl, hrange, hbefore, hafter, hbelow⟩

/-! ### Which tactics are represented -/

theorem exists_places {rule : RootRule} {lines : LineStarts} {forest : List InfoTree} {result : List Root}
    (hresult : roots rule lines forest = .ok result) :
    ∃ places, List.Forall₂ (fun place root => rootOf rule lines place.2 = .ok root) places result ∧
      (places.map Prod.fst).Nodup ∧
      ∀ address tree, (address, tree) ∈ places ↔ IsReachedAt forest address tree := by
  obtain ⟨own, hown, hperm⟩ := rootsAfter_eq_ok hresult 0
  obtain ⟨places, hplaces, hsame⟩ := List.perm_comp_forall₂ hperm hown.flip
  refine ⟨places, hplaces.flip, ?_, fun address tree => hsame.mem_iff.trans mem_rootPlaces_iff⟩
  rw [(hsame.map Prod.fst).nodup_iff, List.Nodup, List.pairwise_map]
  refine (rootPlaces_pairwise 0 forest).imp fun hincomparable heq => hincomparable.1 ?_
  rw [heq]

/-- Every outermost tactic has a root of its own. -/
def EveryRepresented (lines : LineStarts) (forest : List InfoTree) (result : List Root) : Prop :=
  ∃ places : List (List Nat × InfoTree),
    List.Forall₂ (fun place root => StandsFor lines place.2 root) places result ∧
      (places.map Prod.fst).Nodup ∧
      ∀ address tree, IsOutermostAt forest address tree → (address, tree) ∈ places

/-- Where no outermost tactic is the word `by`, the roots are made of the outermost tactics that are not passed
over, each of one. So each outermost tactic has a root of its own exactly if none is passed over. -/
theorem outermost_represented_iff {rule : RootRule} {lines : LineStarts} {forest : List InfoTree}
    {result : List Root}
    (htexts : ∀ address tree, IsOutermostAt forest address tree → tree.ref.part "pp" ≠ .str "by")
    (hresult : roots rule lines forest = .ok result) :
    (∃ places : List (List Nat × InfoTree),
      List.Forall₂ (fun place root => StandsFor lines place.2 root) places result ∧
        (places.map Prod.fst).Nodup ∧
        ∀ address tree, (address, tree) ∈ places ↔
          IsOutermostAt forest address tree ∧ ¬ PassedOver forest address) ∧
      (EveryRepresented lines forest result ↔
        ∀ address tree, IsOutermostAt forest address tree → ¬ PassedOver forest address) := by
  obtain ⟨places, hplaces, hnodup, hreached⟩ := exists_places hresult
  have hstand : List.Forall₂ (fun place root => StandsFor lines place.2 root) places result := by
    have houtermost : ∀ place ∈ places, IsOutermostAt forest place.1 place.2 :=
      fun place hplace => ((hreached place.1 place.2).1 hplace).1
    refine ((List.forall₂_and_left _ _).2 ⟨houtermost, hplaces⟩).imp ?_
    rintro place root ⟨houtermost, hroot⟩
    exact standsFor_of_rootOf hroot (htexts place.1 place.2 houtermost)
  refine ⟨⟨places, hstand, hnodup, hreached⟩, ?_, ?_⟩
  · -- As many places as roots: nothing can stand among them besides the nodes that are reached.
    rintro ⟨others, hothers, hothersNodup, hevery⟩ address tree houtermost
    have hsubset : places ⊆ others := fun place hplace =>
      hevery place.1 place.2 ((hreached place.1 place.2).1 hplace).1
    have hlength : others.length = places.length := hothers.length_eq.trans hplaces.length_eq.symm
    have hperm : places.Perm others :=
      ((hnodup.of_map Prod.fst).subperm hsubset).perm_of_length_le hlength.le
    exact ((hreached address tree).1 (hperm.mem_iff.2 (hevery address tree houtermost))).2
  · intro hnone
    exact ⟨places, hstand, hnodup, fun address tree houtermost =>
      (hreached address tree).2 ⟨houtermost, hnone address tree houtermost⟩⟩

section Nodes

variable {pp : Value} {bytes : ByteRange} {children : List InfoTree}

@[simp] theorem isTactic_tacticNode : (tacticNode pp bytes children).isTactic = true := rfl

@[simp] theorem text_tacticNode : (tacticNode pp bytes children).ref.part "pp" = pp := rfl

@[simp] theorem isTactic_commandNode : (commandNode children).isTactic = false := rfl

@[simp] theorem children_commandNode : (commandNode children).children = children := rfl

end Nodes

/-- Tactics that are the last of their siblings hide nothing, whatever stands before them. -/
theorem tangledCommands_represented :
    (∀ address tree, IsOutermostAt tangledCommands address tree → tree.ref.part "pp" ≠ .str "by") ∧
      roots .outerFirst ⟨[0, 20], []⟩ tangledCommands = .ok [joinedRoot, simpRoot, laterRoot] ∧
      EveryRepresented ⟨[0, 20], []⟩ tangledCommands [joinedRoot, simpRoot, laterRoot] := by
  have hplaces {address : List Nat} {tree : InfoTree} (houtermost : IsOutermostAt tangledCommands address tree) :
      tree.ref.part "pp" ≠ .str "by" ∧ ¬ PassedOver tangledCommands address := by
    have hplace : address = [0, 0] ∧ tree = tacticNode (.str "rfl") ⟨30, 33⟩ [] ∨
        ∃ path, address = 1 :: path ∧ (path = [0, 0] ∧ tree = tacticNode (.str "simp") ⟨5, 9⟩ [] ∨
          path = [1] ∧ tree = tacticNode (.str "simp; rfl") ⟨5, 14⟩ [tacticNode (.str "rfl") ⟨11, 14⟩ []]) := by
      simpa [tangledCommands, isOutermostAt_cons_iff, isOutermostAt_nil] using houtermost
    rcases hplace with ⟨rfl, rfl⟩ | ⟨path, rfl, ⟨rfl, rfl⟩ | ⟨rfl, rfl⟩⟩ <;>
      simp [tangledCommands, passedOver_zero_iff, passedOver_succ_iff, not_passedOver_nil]
  have hresult : roots .outerFirst ⟨[0, 20], []⟩ tangledCommands = .ok [joinedRoot, simpRoot, laterRoot] := by
    cbv
  have htexts := fun address tree houtermost => (@hplaces address tree houtermost).1
  refine ⟨htexts, hresult, (outermost_represented_iff htexts hresult).2.2 ?_⟩
  exact fun address tree houtermost => (hplaces houtermost).2

/-- Two tactics side by side. -/
def adjacentTactics : List InfoTree :=
  [commandNode [tacticNode (.str "simp") ⟨5, 9⟩ [], tacticNode (.str "rfl") ⟨11, 14⟩ []]]

/-- Of two tactics side by side the second has no root. -/
theorem second_of_adjacentTactics_unrepresented :
    (∀ address tree, IsOutermostAt adjacentTactics address tree → tree.ref.part "pp" ≠ .str "by") ∧
      IsOutermostAt adjacentTactics [0, 1] (tacticNode (.str "rfl") ⟨11, 14⟩ []) ∧
      (∀ rule, roots rule ⟨[0, 20], []⟩ adjacentTactics = .ok [simpRoot]) ∧
      ¬ EveryRepresented ⟨[0, 20], []⟩ adjacentTactics [simpRoot] := by
  have hfirst : IsOutermostAt adjacentTactics [0, 0] (tacticNode (.str "simp") ⟨5, 9⟩ []) :=
    .inside rfl rfl (.here rfl rfl)
  have hsecond : IsOutermostAt adjacentTactics [0, 1] (tacticNode (.str "rfl") ⟨11, 14⟩ []) :=
    .inside rfl rfl (.here rfl rfl)
  refine ⟨?_, hsecond, ?_, ?_⟩
  · intro address tree houtermost
    have hplace : ∃ path, address = 0 :: path ∧ (path = [0] ∧ tree = tacticNode (.str "simp") ⟨5, 9⟩ [] ∨
        path = [1] ∧ tree = tacticNode (.str "rfl") ⟨11, 14⟩ []) := by
      simpa [adjacentTactics, isOutermostAt_cons_iff, isOutermostAt_nil] using houtermost
    obtain ⟨path, -, ⟨-, rfl⟩ | ⟨-, rfl⟩⟩ := hplace <;> simp
  · intro rule
    cases rule with
    | outerFirst => cbv
    | innerFirst => cbv
  · rintro ⟨places, hplaces, -, hevery⟩
    obtain ⟨place, rfl⟩ := List.length_eq_one_iff.1 hplaces.length_eq
    have hsame := (List.mem_singleton.1 (hevery _ _ hfirst)).trans (List.mem_singleton.1 (hevery _ _ hsecond)).symm
    cases hsame

end ProofDump.InfoTree
