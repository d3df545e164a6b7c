import ProofDump.Proofs.InfoTree.Typed

/-!
# Steps that are left out

Nothing is asked of the forest here: ranges may overlap, nest the wrong way round or be missing. A node that
could be a step is left out only for the range it is compared with. That range is the one given at the start
or that of a step taken earlier, wherever the walk got it from: a node above, an earlier sibling, or an earlier
sibling of a node above. So what is left out lies within the given range or within an earlier step
(`left_out_steps_covered`).
-/

namespace ProofDump

/-- The text, or the list in its place, has the sign in it. -/
def Value.mentions (value : Value) (sign : Char) : Bool :=
  match value with
  | .str text => sign ∈ text.toList
  | .arr items => items.any (·.same (.str (String.singleton sign)))
  | _ => false

theorem Value.hasText_eq_ok {value : Value} {part : String} {sign : Char} {found : Bool}
    (hpart : part = String.singleton sign) (hfound : value.hasText part = .ok found) :
    found = value.mentions sign := by
  subst hpart
  cases value with
  | str text =>
      have hcontains : Text.contains (String.singleton sign).toList text.toList = decide (sign ∈ text.toList) := by
        rw [Bool.eq_iff_iff, decide_eq_true_eq, String.toList_singleton]
        exact Text.contains_singleton
      rw [hasText, hcontains] at hfound
      exact (Except.ok.inj hfound).symm
  | arr items => exact (Except.ok.inj hfound).symm
  | _ => cases hfound

namespace InfoTree

/-- What was printed is one tactic, and not the word `by`. -/
def isSingular (pp : Value) : Bool :=
  !pp.mentions '\n' && !pp.mentions ';' && !pp.same (.str "by")

/-- The node is a tactic that could be a step. -/
def isEligible (tree : InfoTree) : Bool := tree.isTactic && isSingular (tree.ref.part "pp")

/-- The tactic has the range and the text of the node, and the texts of its goals. -/
structure IsTacticOf (lines : LineStarts) (tree : InfoTree) (tactic : Tactic) : Prop where
  range : FileRange.ofValue lines (tree.ref.part "range") = .ok tactic.range
  text : tactic.pp = tree.ref.part "pp"
  before : goalTexts ((tree.info.part "tactic").part "before") = .ok tactic.before
  after : goalTexts ((tree.info.part "tactic").part "after") = .ok tactic.after

/-! ### One node -/

theorem isCompound_eq_ok {pp : Value} {compound : Bool} (hcompound : isCompound pp = .ok compound) :
    compound = (pp.mentions '\n' || pp.mentions ';') := by
  obtain ⟨several, hseveral, hcompound⟩ := bind_eq_ok.1 hcompound
  have hlines : several = pp.mentions '\n' := Value.hasText_eq_ok rfl hseveral
  rw [← hlines]
  cases several with
  | true => exact (Except.ok.inj hcompound).symm
  | false => exact Value.hasText_eq_ok rfl hcompound

theorem isSingular_iff {pp : Value} {compound : Bool} (hcompound : isCompound pp = .ok compound) :
    isSingular pp = true ↔ compound = false ∧ pp ≠ .str "by" := by
  have hword : (!pp.same (.str "by")) = true ↔ pp ≠ .str "by" := by
    rw [Bool.not_eq_true', ← Bool.not_eq_true, Value.same_str_iff]
  rw [isSingular, ← Bool.not_or, ← isCompound_eq_ok hcompound, Bool.and_eq_true, hword, Bool.not_eq_true']

theorem step?_eq_some {lines : LineStarts} {previous : Option FileRange} {tree : InfoTree} {tactic : Tactic}
    (hstep : step? lines previous tree.info tree.ref = .ok (some tactic)) :
    tree.isEligible = true ∧ IsTacticOf lines tree tactic := by
  rcases step?_cases hstep with ⟨-, hnone⟩ | ⟨htactic, hanswers⟩
  · cases hnone
  · cases hanswers with
    | taken hsimple hrange hby hbefore hafter =>
        have hsingular := (isSingular_iff (hsimple rfl)).2 ⟨rfl, hby⟩
        exact ⟨Bool.and_eq_true_iff.2 ⟨htactic, hsingular⟩, hrange, rfl, hbefore, hafter⟩

/-- A tactic that could be a step is left out only if it lies within the range it is compared with. -/
theorem covered_of_step?_eq_none {lines : LineStarts} {previous : Option FileRange} {tree : InfoTree}
    (hstep : step? lines previous tree.info tree.ref = .ok none) (heligible : tree.isEligible = true) :
    ∃ range, FileRange.ofValue lines (tree.ref.part "range") = .ok range ∧
      ∃ given ∈ previous, given.covers range = true := by
  obtain ⟨htactic, hsingular⟩ := Bool.and_eq_true_iff.1 heligible
  rcases step?_cases hstep with ⟨hnot, -⟩ | ⟨-, hanswers⟩
  · rw [htactic] at hnot
    cases hnot
  · cases hanswers with
    | several hsingle hcompound => cases ((isSingular_iff hcompound).1 hsingular).1
    | covered hrange hgiven hcovers => exact ⟨_, hrange, _, hgiven, hcovers⟩
    | word hby => exact absurd hsingular (by rw [hby]; decide)

/-! ### Numbered nodes -/

/-- The nodes of a forest that could be steps, in preorder, each with its place among all nodes; the first node
has the given place. -/
def eligibleFrom (start : Nat) (forest : List InfoTree) : List (InfoTree × Nat) :=
  ((subtrees forest).zipIdx start).filter fun node => node.1.isEligible

theorem eligibleFrom_cons (start : Nat) (tree : InfoTree) (rest : List InfoTree) :
    eligibleFrom start (tree :: rest) =
      (if tree.isEligible then [(tree, start)] else []) ++ (eligibleFrom (start + 1) tree.children ++
        eligibleFrom (start + 1 + (subtrees tree.children).length) rest) := by
  rw [eligibleFrom, subtrees_cons, List.zipIdx_cons, List.zipIdx_append, List.filter_cons, List.filter_append]
  split <;> rfl

theorem le_of_mem_eligibleFrom {start : Nat} {forest : List InfoTree} {node : InfoTree × Nat}
    (hnode : node ∈ eligibleFrom start forest) : start ≤ node.2 :=
  List.le_snd_of_mem_zipIdx (List.mem_of_mem_filter hnode)

theorem eligibleFrom_places (start : Nat) (forest : List InfoTree) :
    ((eligibleFrom start forest).map Prod.snd).Pairwise (· < ·) := by
  have hplaces : ((subtrees forest).zipIdx start).map Prod.snd = List.range' start (subtrees forest).length :=
    List.zipIdx_map_snd start (subtrees forest)
  have hsublist := (List.filter_sublist (p := fun node : InfoTree × Nat => node.1.isEligible)
    (l := (subtrees forest).zipIdx start)).map Prod.snd
  rw [hplaces] at hsublist
  exact (List.pairwise_lt_range' (s := start)).sublist hsublist

/-! ### The walk -/

/-- A node that was taken as a step, with its place and the tactic made of it. -/
structure Taken where
  node : InfoTree × Nat
  tactic : Tactic

/-- The range of the node lies within the given range, or within that of a step taken at an earlier place. -/
def IsCovered (lines : LineStarts) (previous : Option FileRange) (taken : List Taken) (node : InfoTree × Nat) :
    Prop :=
  ∃ range, FileRange.ofValue lines (node.1.ref.part "range") = .ok range ∧
    ((∃ given ∈ previous, given.covers range = true) ∨
      ∃ step ∈ taken, step.node.2 < node.2 ∧ step.tactic.range.covers range = true)

/-- The steps were taken from the nodes, in their order, and what was not taken is covered. -/
structure Accounts (lines : LineStarts) (previous : Option FileRange) (nodes : List (InfoTree × Nat))
    (taken : List Taken) : Prop where
  sublist : (taken.map Taken.node).Sublist nodes
  tactics : ∀ step ∈ taken, IsTacticOf lines step.node.1 step.tactic
  covered : ∀ node ∈ nodes, node ∈ taken.map Taken.node ∨ IsCovered lines previous taken node

section Walk

variable {lines : LineStarts} {previous : Option FileRange} {tree : InfoTree} {start : Nat}

theorem IsCovered.mono {taken all : List Taken} {node : InfoTree × Nat}
    (hcovered : IsCovered lines previous taken node) (hsubset : taken ⊆ all) :
    IsCovered lines previous all node := by
  obtain ⟨range, hrange, hgiven | ⟨step, hstep, hearlier, hcovers⟩⟩ := hcovered
  · exact ⟨range, hrange, .inl hgiven⟩
  · exact ⟨range, hrange, .inr ⟨step, hsubset hstep, hearlier, hcovers⟩⟩

/-- The range that is handed on is that of the step just taken, or the one that was there already. -/
theorem IsCovered.of_nextRange {step : Option Tactic} {taken : List Taken} {node : InfoTree × Nat}
    (hcovered : IsCovered lines (nextRange previous step) taken node) (hplace : start < node.2) :
    IsCovered lines previous (step.toList.map (Taken.mk (tree, start)) ++ taken) node := by
  cases step with
  | none => exact hcovered
  | some tactic =>
      obtain ⟨range, hrange, ⟨given, hgiven, hcovers⟩ | ⟨earlier, hearlier, hbefore, hcovers⟩⟩ := hcovered
      · cases hgiven
        exact ⟨range, hrange, .inr ⟨_, List.mem_cons_self, hplace, hcovers⟩⟩
      · exact ⟨range, hrange, .inr ⟨earlier, List.mem_cons_of_mem _ hearlier, hbefore, hcovers⟩⟩

/-- Two stretches of a walk, of which the second may be compared with another range. -/
theorem Accounts.append {later : Option FileRange} {nodes others : List (InfoTree × Nat)}
    {taken takenOthers : List Taken} (hnodes : Accounts lines previous nodes taken)
    (hothers : Accounts lines later others takenOthers)
    (hcovered : ∀ node ∈ others, IsCovered lines later takenOthers node →
      IsCovered lines previous (taken ++ takenOthers) node) :
    Accounts lines previous (nodes ++ others) (taken ++ takenOthers) where
  sublist := by
    rw [List.map_append]
    exact hnodes.sublist.append hothers.sublist
  tactics := List.forall_mem_append.2 ⟨hnodes.tactics, hothers.tactics⟩
  covered := by
    intro node hnode
    rw [List.map_append, List.mem_append]
    rcases List.mem_append.1 hnode with hnode | hnode
    · exact (hnodes.covered node hnode).imp .inl fun hcovered => hcovered.mono (List.subset_append_left _ _)
    · exact (hothers.covered node hnode).imp .inr (hcovered node hnode)

theorem accounts_own {step : Option Tactic} (hstep : step? lines previous tree.info tree.ref = .ok step)
    (start : Nat) :
    Accounts lines previous (if tree.isEligible then [(tree, start)] else [])
      (step.toList.map (Taken.mk (tree, start))) := by
  cases step with
  | none =>
      refine ⟨List.nil_sublist _, List.forall_mem_nil _, fun node hnode => .inr ?_⟩
      split at hnode
      · rename_i heligible
        obtain ⟨range, hrange, hgiven⟩ := covered_of_step?_eq_none hstep heligible
        rw [List.mem_singleton.1 hnode]
        exact ⟨range, hrange, .inl hgiven⟩
      · cases hnode
  | some tactic =>
      obtain ⟨heligible, htactic⟩ := step?_eq_some hstep
      rw [if_pos heligible]
      exact ⟨List.Sublist.refl _, List.forall_mem_singleton.2 htactic, fun node hnode => .inl hnode⟩

theorem steps_account {forest : List InfoTree} {found : List Tactic}
    (hfound : steps lines previous forest = .ok found) (start : Nat) :
    ∃ taken, taken.map Taken.tactic = found ∧ Accounts lines previous (eligibleFrom start forest) taken := by
  induction forest using forestInduction generalizing previous found start with
  | nil =>
      cases hfound
      exact ⟨[], rfl, List.nil_sublist _, List.forall_mem_nil _, List.forall_mem_nil _⟩
  | cons tree rest below others =>
      obtain ⟨step, foundBelow, foundRest, hstep, hbelow, hrest, rfl⟩ := steps_cons_inv hfound
      obtain ⟨takenBelow, htacticsBelow, hbelow⟩ := below hbelow (start + 1)
      obtain ⟨takenRest, htacticsRest, hrest⟩ := others hrest (start + 1 + (subtrees tree.children).length)
      -- The nodes below and the nodes after are compared with the same range, since none comes back up.
      have hlater := hbelow.append hrest fun node _ hcovered => hcovered.mono (List.subset_append_right _ _)
      have hplaces : ∀ node ∈ eligibleFrom (start + 1) tree.children ++
          eligibleFrom (start + 1 + (subtrees tree.children).length) rest, start < node.2 := by
        intro node hnode
        rcases List.mem_append.1 hnode with hnode | hnode
        · have hle := le_of_mem_eligibleFrom hnode
          omega
        · have hle := le_of_mem_eligibleFrom hnode
          omega
      have hall := (accounts_own hstep start).append hlater
        fun node hnode hcovered => hcovered.of_nextRange (hplaces node hnode)
      refine ⟨_, ?_, eligibleFrom_cons start tree rest ▸ hall⟩
      rw [List.map_append, List.map_append, List.map_map, htacticsBelow, htacticsRest, List.append_assoc]
      exact congrArg (· ++ (foundBelow ++ foundRest)) (List.map_id _)

end Walk

/-- Whatever the ranges of a forest are, the steps collected from it are the tactics of some of the nodes that
could be steps, in preorder and each node at most once. A node that was not taken lies within the range given at
the start, or within a step taken earlier. -/
theorem left_out_steps_covered {lines : LineStarts} {previous : Option FileRange} {forest : List InfoTree}
    {found : List Tactic} (hfound : steps lines previous forest = .ok found) :
    ∃ taken : List Taken, taken.map Taken.tactic = found ∧
      (taken.map fun step => step.node.2).Pairwise (· < ·) ∧
      Accounts lines previous (eligibleFrom 0 forest) taken := by
  obtain ⟨taken, htactics, haccounts⟩ := steps_account hfound 0
  have hplaces := (eligibleFrom_places 0 forest).sublist (haccounts.sublist.map Prod.snd)
  rw [List.map_map] at hplaces
  exact ⟨taken, htactics, hplaces, haccounts⟩

/-- A tactic whose range was not recorded, which counts as the whole file. -/
def rangelessNode (pp : Value) (children : List InfoTree) : InfoTree :=
  node (.obj [("tactic", .obj [("before", .arr []), ("after", .arr [])])]) (.obj [("pp", pp)]) children none

/-- Tactics whose ranges cross: one goes beyond the tactic above it, one lies within it, and one that counts as
the whole file stands between others. -/
def crossedTactics : List InfoTree :=
  [tacticNode (.str "exact h") ⟨22, 24⟩ [],
    tacticNode (.str "simp") ⟨0, 8⟩
      [tacticNode (.str "ring") ⟨5, 14⟩ [tacticNode (.str "rfl") ⟨6, 12⟩ []],
        tacticNode (.str "omega") ⟨2, 4⟩ []],
    rangelessNode (.str "intro x") [], tacticNode (.str "skip") ⟨15, 19⟩ []]

def crossedSteps : List Tactic :=
  [⟨⟨⟨1, 1⟩, ⟨1, 9⟩⟩, .str "simp", .arr [], .arr []⟩, ⟨⟨⟨1, 6⟩, ⟨2, 5⟩⟩, .str "ring", .arr [], .arr []⟩,
    ⟨⟨⟨1, 3⟩, ⟨1, 5⟩⟩, .str "omega", .arr [], .arr []⟩, ⟨⟨⟨1, 1⟩, ⟨4, 1⟩⟩, .str "intro x", .arr [], .arr []⟩]

/-- Of seven nodes four are taken, also the one that lies within its parent, since it is compared with its sibling.
The others lie within the given range, within the node above, and within the whole file. -/
theorem crossedTactics_covered :
    steps ⟨[0, 10, 20], []⟩ (some ⟨⟨3, 1⟩, ⟨3, 9⟩⟩) crossedTactics = .ok crossedSteps ∧
      (eligibleFrom 0 crossedTactics).length = 7 ∧
      ∃ taken : List Taken, taken.map Taken.tactic = crossedSteps ∧
        (taken.map fun step => step.node.2).Pairwise (· < ·) ∧
        Accounts ⟨[0, 10, 20], []⟩ (some ⟨⟨3, 1⟩, ⟨3, 9⟩⟩) (eligibleFrom 0 crossedTactics) taken := by
  have hfound : steps ⟨[0, 10, 20], []⟩ (some ⟨⟨3, 1⟩, ⟨3, 9⟩⟩) crossedTactics = .ok crossedSteps := rfl
  exact ⟨hfound, rfl, left_out_steps_covered hfound⟩

end InfoTree

end ProofDump
