import ProofDump.Proofs.Except
import ProofDump.Proofs.InfoTree.Forest
import ProofDump.Proofs.Text.Search

/-!
# The steps of a nested forest

Steps inside other steps are kept out by one range, that of the step before, which goes from sibling to
sibling and down, but never back up. In a nested forest this is enough. Where the range contains a whole
forest it rejects everything there and stays what it is (`steps_of_covered`). Where it is apart from a
forest it rejects none of it, and each step found takes over as the range to compare with: it contains
what is below it and is apart from what comes after it (`steps_of_apart`). So the steps collected are the
outermost ones.

All this needs the text of every tactic node. A node whose text was not printed ends the walk.
-/

namespace ProofDump.InfoTree

/-! ### One node -/

theorem goalTexts_of_records {goals : Value} (hgoals : goals.IsRecords) :
    goalTexts goals = .ok (goalTextsOf goals) := by
  obtain ⟨items, rfl, hitems⟩ := hgoals
  have htexts : items.mapM (·.attr "pp") = .ok (items.map (·.part "pp")) :=
    mapM_eq_ok_map fun item hitem => (hitems item hitem).attr "pp"
  show (do return .arr (← items.mapM (·.attr "pp")) : Except Fault Value) = _
  rw [htexts]
  rfl

theorem isCompound_text (text : String) :
    isCompound (.str text) = .ok (decide ('\n' ∈ text.toList ∨ ';' ∈ text.toList)) := by
  have hline : Text.contains "\n".toList text.toList = decide ('\n' ∈ text.toList) := by
    rw [Bool.eq_iff_iff, decide_eq_true_eq]
    exact Text.contains_singleton
  have hjoin : Text.contains ";".toList text.toList = decide (';' ∈ text.toList) := by
    rw [Bool.eq_iff_iff, decide_eq_true_eq]
    exact Text.contains_singleton
  simp only [isCompound, Value.hasText, hline, hjoin]
  by_cases hmem : '\n' ∈ text.toList
  · simp [hmem, bind, Except.bind, pure, Except.pure]
  · simp [hmem, bind, Except.bind]

theorem IsDeclared.tacticPart? {tree : InfoTree} (hdeclared : tree.IsDeclared) :
    InfoTree.tacticPart? tree.info =
      .ok (if tree.isTactic then some (tree.info.part "tactic") else none) := by
  cases hdeclared with
  | node hinfo href htext htactic hlisted =>
      rcases hinfo with rfl | hrecord
      · rfl
      · obtain ⟨fields, rfl⟩ := hrecord
        rfl

/-- The text of the node was printed, unless nobody asks for it. -/
def isReadable (tree : InfoTree) : Bool := !tree.isTactic || tree.text?.isSome

/-- What a tactic node without a text comes to. -/
def unreadable : Fault := .notContainer Value.null.loadedKind

theorem IsDeclared.step?_unreadable {tree : InfoTree} (hdeclared : tree.IsDeclared)
    (hreadable : tree.isReadable = false) (lines : LineStarts) (previous : Option FileRange) :
    step? lines previous tree.info tree.ref = .error unreadable := by
  simp only [isReadable, Bool.or_eq_false_iff, Bool.not_eq_false'] at hreadable
  obtain ⟨htactic, htext⟩ := hreadable
  rw [step?, hdeclared.tacticPart?, if_pos htactic]
  cases hdeclared with
  | node hinfo href hpp hgoals hlisted =>
      rcases hpp with hnull | ⟨text, hsome⟩
      · simp only [ref, tactic?, href.attr, hnull]
        rfl
      · simp [text?, ref, hsome, Value.text?] at htext

/-- A tactic with a printed text is taken as a step exactly if the text is that of a single step and its
bytes lie outside the range of the step before. -/
theorem tactic?_single {lines : LineStarts} (hlines : lines.FromZero) {ref part : Value}
    {text : String} {bytes : ByteRange} (href : ref.IsRecord) (htext : ref.part "pp" = .str text)
    (hbytes : ref.part "range" = bytes.value) (hpart : part.IsRecord)
    (hbefore : (part.part "before").IsRecords) (hafter : (part.part "after").IsRecords)
    (previous : Option ByteRange) :
    tactic? lines ref part true (previous.map (.ofBytes lines)) =
      .ok (if isSingle text && !previous.any (·.covers bytes) then
        some ⟨.ofBytes lines bytes, .str text, goalTextsOf (part.part "before"),
          goalTextsOf (part.part "after")⟩
        else none) := by
  have hcovered : (previous.map (FileRange.ofBytes lines)).any (·.covers (.ofBytes lines bytes)) =
      previous.any (·.covers bytes) := by
    cases previous with
    | none => rfl
    | some range => exact FileRange.covers_ofBytes hlines range bytes
  have hby : (Value.str text).same (.str "by") = decide (text = "by") := by
    simp only [Value.same]
    rfl
  simp only [tactic?, href.attr, hpart.attr, htext, hbytes, isCompound_text,
    FileRange.ofValue_bytes hlines, goalTexts_of_records hbefore, goalTexts_of_records hafter,
    bind, Except.bind, pure, Except.pure, hcovered, hby, isSingle]
  by_cases hcompound : '\n' ∈ text.toList ∨ ';' ∈ text.toList
  · have hnot : ¬('\n' ∉ text.toList ∧ ';' ∉ text.toList ∧ text ≠ "by") := by tauto
    simp [hcompound, hnot]
  · rw [not_or] at hcompound
    by_cases hword : text = "by"
    · simp [hword]
    · cases previous.any (·.covers bytes) <;> simp [hcompound, hword]

theorem IsDeclared.step?_readable {tree : InfoTree} (hdeclared : tree.IsDeclared)
    (hreadable : tree.isReadable = true) {lines : LineStarts} (hlines : lines.FromZero)
    (hbytes : tree.ref.part "range" = tree.bytes.value) (previous : Option ByteRange) :
    step? lines (previous.map (.ofBytes lines)) tree.info tree.ref =
      .ok (if tree.isStep && !previous.any (·.covers tree.bytes) then some (tree.tactic lines)
        else none) := by
  rw [step?, hdeclared.tacticPart?]
  by_cases htactic : tree.isTactic = true
  · obtain ⟨text, htext⟩ : ∃ text, tree.text? = some text := by
      simpa [isReadable, htactic, Option.isSome_iff_exists] using hreadable
    have hpp : tree.ref.part "pp" = .str text := by
      revert htext
      rw [text?]
      cases tree.ref.part "pp" <;> simp [Value.text?]
    have hstep : tree.isStep = isSingle text := by
      simp [isStep, htactic, htext]
    rw [if_pos htactic, hstep]
    cases hdeclared with
    | node hinfo href _ hgoals hlisted =>
        obtain ⟨hpart, hbefore, hafter⟩ := hgoals htactic
        have htaken := tactic?_single hlines href hpp hbytes hpart hbefore hafter previous
        rw [tactic, hpp]
        exact htaken
  · have hstep : tree.isStep = false := by
      simp [isStep, htactic]
    rw [if_neg htactic, hstep]
    rfl

/-! ### Walking on from a node -/

/-- The walk looks at the first node, goes on below it, and then to the trees after it. -/
theorem IsDeclared.steps_cons {tree : InfoTree} (hdeclared : tree.IsDeclared) (rest : List InfoTree)
    (lines : LineStarts) (previous : Option FileRange) :
    steps lines previous (tree :: rest) = (do
      let step ← InfoTree.step? lines previous tree.info tree.ref
      let below ← steps lines (nextRange previous step) tree.children
      let others ← steps lines (nextRange previous step) rest
      return step.toList ++ below ++ others) := by
  cases hdeclared with
  | @node info ref children unlisted hinfo href htext htactic hlisted =>
      simp only [InfoTree.info, InfoTree.ref, InfoTree.children, steps, stepsIn, hlisted]
      cases InfoTree.step? lines previous info ref with
      | error fault => rfl
      | ok step =>
          simp only [ok_bind]
          cases steps lines (nextRange previous step) children with
          | error fault => rfl
          | ok below =>
              simp only [ok_bind]
              cases steps lines (nextRange previous step) rest <;> rfl

theorem IsDeclared.steps_cons_eq_ok {tree : InfoTree} (hdeclared : tree.IsDeclared) {rest : List InfoTree}
    {lines : LineStarts} {previous : Option FileRange} {step : Option Tactic} {below others : List Tactic}
    (hstep : InfoTree.step? lines previous tree.info tree.ref = .ok step)
    (hbelow : steps lines (nextRange previous step) tree.children = .ok below)
    (hothers : steps lines (nextRange previous step) rest = .ok others) :
    steps lines previous (tree :: rest) = .ok (step.toList ++ below ++ others) := by
  rw [hdeclared.steps_cons, hstep, ok_bind, hbelow, ok_bind, hothers]
  rfl

/-! ### Forests that are inside the step before, or apart from it -/

/-- A nested forest in which every text that is asked for was printed. -/
structure Legible (forest : List InfoTree) : Prop where
  declared : Declared forest
  nested : Nested forest
  readable : ∀ tree ∈ subtrees forest, tree.isReadable = true

theorem Legible.cons {tree : InfoTree} {rest : List InfoTree} (hlegible : Legible (tree :: rest)) :
    Legible tree.children ∧ Legible rest := by
  obtain ⟨-, hdeclaredBelow, hdeclaredRest⟩ := hlegible.declared.cons
  obtain ⟨hnestedBelow, hnestedRest⟩ := hlegible.nested.cons
  constructor
  · exact ⟨hdeclaredBelow, hnestedBelow,
      fun child hchild => hlegible.readable child (subtrees_children_subset tree rest hchild)⟩
  · exact ⟨hdeclaredRest, hnestedRest,
      fun other hother => hlegible.readable other (subtrees_tail_subset tree rest hother)⟩

theorem Legible.step? {tree : InfoTree} {rest : List InfoTree} (hlegible : Legible (tree :: rest))
    {lines : LineStarts} (hlines : lines.FromZero) (previous : Option ByteRange) :
    InfoTree.step? lines (previous.map (.ofBytes lines)) tree.info tree.ref =
      .ok (if tree.isStep && !previous.any (·.covers tree.bytes) then some (tree.tactic lines)
        else none) := by
  have hself := mem_subtrees_self tree rest
  exact (hlegible.declared tree hself).step?_readable (hlegible.readable tree hself) hlines
    (hlegible.nested.ranged tree hself) previous

theorem steps_of_covered {lines : LineStarts} (hlines : lines.FromZero) {range : ByteRange}
    {forest : List InfoTree} (hlegible : Legible forest)
    (hcovered : ∀ tree ∈ forest, range.covers tree.bytes = true) :
    steps lines (some (.ofBytes lines range)) forest = .ok [] := by
  induction forest using forestInduction with
  | nil => rfl
  | cons tree rest below others =>
      obtain ⟨hbelow, hrest⟩ := hlegible.cons
      have hself := mem_subtrees_self tree rest
      have htree := hcovered tree List.mem_cons_self
      have hstep := hlegible.step? hlines (some range)
      rw [Option.any_some, htree, Bool.not_true, Bool.and_false] at hstep
      have hchildren := below hbelow fun child hchild =>
        ByteRange.covers_trans htree (hlegible.nested.within tree hself child hchild)
      have hothers := others hrest fun other hother => hcovered other (List.mem_cons_of_mem _ hother)
      exact (hlegible.declared tree hself).steps_cons_eq_ok hstep hchildren hothers

theorem steps_of_apart {lines : LineStarts} (hlines : lines.FromZero) {previous : Option ByteRange}
    {above forest : List InfoTree} (hlegible : Legible forest)
    (habove : ∀ outer ∈ above, outer.isStep = false)
    (hapart : ∀ range ∈ previous, ∀ tree ∈ forest, range.Apart tree.bytes) :
    steps lines (previous.map (.ofBytes lines)) forest =
      .ok ((outermostOf isStep above forest).map (tactic lines)) := by
  induction forest using forestInduction generalizing previous above with
  | nil => rfl
  | cons tree rest below others =>
      obtain ⟨hbelow, hrest⟩ := hlegible.cons
      have hself := mem_subtrees_self tree rest
      have hproper := hlegible.nested.proper tree hself
      have hsiblings := (List.pairwise_cons.1 hlegible.nested.apart).1
      have hwithin := hlegible.nested.within tree hself
      have hfree : previous.any (·.covers tree.bytes) = false := by
        cases previous with
        | none => rfl
        | some range =>
            exact (hapart range rfl tree List.mem_cons_self).covers_eq_false hproper.2
      have hstep := hlegible.step? hlines previous
      rw [hfree, Bool.not_false, Bool.and_true] at hstep
      by_cases hown : tree.isStep = true
      · -- The node is taken: it contains what is below it and is apart from what comes after it.
        rw [if_pos hown] at hstep
        have hchildren : steps lines (some (.ofBytes lines tree.bytes)) tree.children = .ok [] :=
          steps_of_covered hlines hbelow hwithin
        have hothers : steps lines ((some tree.bytes).map (.ofBytes lines)) rest =
            .ok ((outermostOf isStep above rest).map (tactic lines)) := by
          refine others hrest habove fun range hrange other hother => ?_
          cases hrange
          exact hsiblings other hother
        rw [(hlegible.declared tree hself).steps_cons_eq_ok hstep hchildren hothers, outermostOf_cons habove,
          if_pos hown]
        rfl
      · -- The node is passed over: the step before stays apart from its children and its siblings.
        rw [if_neg hown] at hstep
        have hchildren : steps lines (previous.map (.ofBytes lines)) tree.children =
            .ok ((outermostOf isStep (tree :: above) tree.children).map (tactic lines)) := by
          refine below hbelow ?_ fun range hrange child hchild => ?_
          · simpa [hown] using habove
          · exact (hapart range hrange tree List.mem_cons_self).of_covers (hwithin child hchild)
        have hothers : steps lines (previous.map (.ofBytes lines)) rest =
            .ok ((outermostOf isStep above rest).map (tactic lines)) :=
          others hrest habove fun range hrange other hother =>
            hapart range hrange other (List.mem_cons_of_mem _ hother)
        rw [(hlegible.declared tree hself).steps_cons_eq_ok hstep hchildren hothers, outermostOf_cons habove,
          if_neg hown, List.map_append]
        rfl

/-! ### Forests with texts that were not printed -/

theorem all_subtrees_cons (test : InfoTree → Bool) (tree : InfoTree) (rest : List InfoTree) :
    (subtrees (tree :: rest)).all test =
      (test tree && ((subtrees tree.children).all test && (subtrees rest).all test)) := by
  rw [subtrees_cons, List.all_cons, List.all_append]

theorem IsDeclared.exists_step? {tree : InfoTree} (hdeclared : tree.IsDeclared)
    (hreadable : tree.isReadable = true) {lines : LineStarts} (hlines : lines.FromZero)
    (hbytes : tree.ref.part "range" = tree.bytes.value) (previous : Option ByteRange) :
    ∃ step, ∃ next : Option ByteRange,
      InfoTree.step? lines (previous.map (.ofBytes lines)) tree.info tree.ref = .ok step ∧
        nextRange (previous.map (.ofBytes lines)) step = next.map (.ofBytes lines) := by
  have hstep := hdeclared.step?_readable hreadable hlines hbytes previous
  by_cases htaken : (tree.isStep && !previous.any (·.covers tree.bytes)) = true
  · rw [if_pos htaken] at hstep
    exact ⟨_, some tree.bytes, hstep, rfl⟩
  · rw [if_neg htaken] at hstep
    exact ⟨_, previous, hstep, rfl⟩

/-- A walk over a forest comes to its end if every text that is asked for was printed, and to a fault if
one was not. -/
theorem steps_eq_ite_readable {lines : LineStarts} (hlines : lines.FromZero)
    (previous : Option ByteRange) {forest : List InfoTree} (hdeclared : Declared forest)
    (hranged : ∀ tree ∈ subtrees forest, tree.ref.part "range" = tree.bytes.value) :
    ∃ found, steps lines (previous.map (.ofBytes lines)) forest =
      if (subtrees forest).all isReadable then .ok found else .error unreadable := by
  induction forest using forestInduction generalizing previous with
  | nil => exact ⟨[], rfl⟩
  | cons tree rest below others =>
      obtain ⟨htree, hbelow, hrest⟩ := hdeclared.cons
      rw [all_subtrees_cons]
      by_cases hreadable : tree.isReadable = true
      · obtain ⟨step, next, hstep, hnext⟩ := htree.exists_step? hreadable hlines
          (hranged tree (mem_subtrees_self tree rest)) previous
        obtain ⟨foundBelow, hfoundBelow⟩ := below next hbelow
          fun child hchild => hranged child (subtrees_children_subset tree rest hchild)
        obtain ⟨foundRest, hfoundRest⟩ := others next hrest
          fun other hother => hranged other (subtrees_tail_subset tree rest hother)
        rw [← hnext] at hfoundBelow hfoundRest
        rw [htree.steps_cons, hstep, ok_bind, hfoundBelow, hreadable, Bool.true_and]
        by_cases hchildren : (subtrees tree.children).all isReadable = true
        · rw [if_pos hchildren, ok_bind, hfoundRest, hchildren, Bool.true_and]
          by_cases hothers : (subtrees rest).all isReadable = true
          · refine ⟨step.toList ++ foundBelow ++ foundRest, ?_⟩
            rw [if_pos hothers, if_pos hothers]
            rfl
          · refine ⟨[], ?_⟩
            rw [if_neg hothers, if_neg hothers]
            rfl
        · refine ⟨[], ?_⟩
          rw [if_neg hchildren, if_neg (by simp [hchildren])]
          rfl
      · rw [Bool.not_eq_true] at hreadable
        refine ⟨[], ?_⟩
        rw [htree.steps_cons, htree.step?_unreadable hreadable, if_neg (by simp [hreadable])]
        rfl

/-- The steps collected from a nested forest are its outermost steps, each once and in preorder, provided
that the text of every tactic node was printed; otherwise the walk ends with a fault. -/
theorem steps_eq_outermost (lines : LineStarts) (hlines : lines.FromZero) (forest : List InfoTree)
    (hdeclared : Declared forest) (hnested : Nested forest) :
    steps lines none forest =
      if (subtrees forest).all isReadable then .ok ((outermostOf isStep [] forest).map (tactic lines))
      else .error unreadable := by
  by_cases hreadable : (subtrees forest).all isReadable = true
  · have hlegible : Legible forest := ⟨hdeclared, hnested, List.all_eq_true.1 hreadable⟩
    rw [if_pos hreadable]
    exact steps_of_apart hlines hlegible (fun _ houter => absurd houter List.not_mem_nil)
      (fun _ hrange => absurd hrange (Option.not_mem_none _))
  · obtain ⟨found, hfound⟩ := steps_eq_ite_readable hlines none hdeclared hnested.ranged
    rw [if_neg hreadable] at hfound ⊢
    exact hfound

def tacticNode (pp : Value) (bytes : ByteRange) (children : List InfoTree) : InfoTree :=
  node (.obj [("tactic", .obj [("before", .arr []), ("after", .arr [])])])
    (.obj [("pp", pp), ("range", bytes.value)]) children none

theorem tacticNode_isDeclared {pp : Value} (hpp : pp = .null ∨ ∃ text, pp = .str text)
    (bytes : ByteRange) (children : List InfoTree) : (tacticNode pp bytes children).IsDeclared := by
  have hgoals : (Value.arr []).IsRecords := ⟨[], rfl, fun _ hitem => absurd hitem List.not_mem_nil⟩
  exact .node (.inr ⟨_, rfl⟩) ⟨_, rfl⟩ hpp (fun _ => ⟨⟨_, rfl⟩, hgoals, hgoals⟩) rfl

def joinedTactics : InfoTree :=
  tacticNode (.str "constructor; simp") ⟨0, 17⟩
    [tacticNode (.str "constructor") ⟨0, 11⟩ [tacticNode (.str "rfl") ⟨2, 5⟩ []],
      tacticNode (.str "simp") ⟨13, 17⟩ []]

theorem joinedTactics_nested : Nested [joinedTactics] where
  ranged := by
    intro tree htree
    simp [joinedTactics, subtrees_cons, children, tacticNode] at htree
    rcases htree with rfl | rfl | rfl | rfl <;> rfl
  proper := by decide
  within := by decide
  apart := by decide
  apartBelow := by decide

theorem joinedTactics_declared : Declared [joinedTactics] := by
  intro tree htree
  simp only [joinedTactics, subtrees_cons, children, tacticNode, subtrees_nil, List.append_nil,
    List.cons_append, List.nil_append, List.mem_cons, List.not_mem_nil, or_false] at htree
  rcases htree with rfl | rfl | rfl | rfl <;> exact tacticNode_isDeclared (.inr ⟨_, rfl⟩) _ _

/-- Of two tactics joined in one node both are collected, and the tactic inside one of them is not. -/
theorem steps_joinedTactics :
    (LineStarts.mk [0, 10, 10] []).FromZero ∧ Declared [joinedTactics] ∧ Nested [joinedTactics] ∧
      steps ⟨[0, 10, 10], []⟩ none [joinedTactics] =
        .ok [⟨⟨⟨1, 1⟩, ⟨3, 2⟩⟩, .str "constructor", .arr [], .arr []⟩,
          ⟨⟨⟨3, 4⟩, ⟨3, 8⟩⟩, .str "simp", .arr [], .arr []⟩] := by
  have hlines : (LineStarts.mk [0, 10, 10] []).FromZero := ⟨rfl, by simp⟩
  refine ⟨hlines, joinedTactics_declared, joinedTactics_nested, ?_⟩
  rw [steps_eq_outermost _ hlines _ joinedTactics_declared joinedTactics_nested]
  rfl

/-- A tactic node whose text was not printed is no step, but ends the walk. -/
theorem steps_of_unprinted_tactic :
    (LineStarts.mk [0, 10] []).FromZero ∧ Declared [tacticNode .null ⟨0, 5⟩ []] ∧
      Nested [tacticNode .null ⟨0, 5⟩ []] ∧ outermostOf isStep [] [tacticNode .null ⟨0, 5⟩ []] = [] ∧
      steps ⟨[0, 10], []⟩ none [tacticNode .null ⟨0, 5⟩ []] = .error unreadable := by
  have hdeclared : Declared [tacticNode .null ⟨0, 5⟩ []] := by
    intro tree htree
    rw [show subtrees [tacticNode .null ⟨0, 5⟩ []] = [tacticNode .null ⟨0, 5⟩ []] from rfl,
      List.mem_singleton] at htree
    rw [htree]
    exact tacticNode_isDeclared (.inl rfl) _ _
  have hnested : Nested [tacticNode .null ⟨0, 5⟩ []] := by
    refine ⟨?_, by decide, by decide, by decide, by decide⟩
    intro tree htree
    rw [show subtrees [tacticNode .null ⟨0, 5⟩ []] = [tacticNode .null ⟨0, 5⟩ []] from rfl,
      List.mem_singleton] at htree
    rw [htree]
    rfl
  exact ⟨⟨rfl, by simp⟩, hdeclared, hnested, rfl, rfl⟩

end ProofDump.InfoTree
