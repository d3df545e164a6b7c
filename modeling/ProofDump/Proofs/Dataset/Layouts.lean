import ProofDump.Dataset.Build
import ProofDump.Proofs.Dataset.Entries
import ProofDump.Proofs.Dataset.LineStates

/-!
# The two layouts agree

Both layouts are written out as maps over the same lists of theorems and tactics: a tactic belongs to a
theorem if it starts within its range, and its state is the one at its start. The agreement of the two,
entry by entry, is read off these forms. The grouped layout writes states into tactic entries that
several theorems may share; writing them twice changes nothing, since the start of an entry stays as it
was.
-/

namespace ProofDump.Dataset

/-- The tactic starts within the range of the theorem. -/
def Declared.owns (declared : Declared) (tactic : Tactic) : Bool :=
  decide (declared.start ≤ tactic.start) && decide (tactic.start ≤ declared.stop)

/-- A tactic entry with its state. -/
def Tactic.entryWith (tactic : Tactic) (state : Value) : Value :=
  .obj [("tactic_text", tactic.text), ("range", .arr [.int tactic.start, .int tactic.stop]),
    ("semantic_before", tactic.before), ("semantic_after", tactic.after),
    ("references", tactic.references), ("pretty_state", state)]

/-- The step of a tactic with its line and state. -/
def Tactic.step (tactic : Tactic) (line state : Value) : Value :=
  .obj [("line", line), ("tactic_text", tactic.text), ("semantic_before", tactic.before),
    ("semantic_after", tactic.after), ("pretty_state", state)]

def Declared.grouped (declared : Declared) (tactics : List Value) : Value :=
  .obj [("theorem_name", declared.name), ("theorem_type", declared.type), ("tactics", .arr tactics)]

def Declared.stepped (declared : Declared) (steps : List Value) : Value :=
  .obj [("theorem_name", declared.name), ("theorem_type", declared.type), ("proof", .arr steps)]

/-! ### What the layouts agree on -/

/-- Both tables have the same entry under a name. -/
def SameUnder (name : String) (first second : Value) : Prop :=
  ∃ entry, first.key name = .ok entry ∧ second.key name = .ok entry

def SameStep (tactic step : Value) : Prop :=
  ∀ name ∈ ["tactic_text", "semantic_before", "semantic_after", "pretty_state"], SameUnder name tactic step

def SameTheorem (grouped stepped : Value) : Prop :=
  SameUnder "theorem_name" grouped stepped ∧ SameUnder "theorem_type" grouped stepped ∧
    ∃ tactics steps, grouped.key "tactics" = .ok (.arr tactics) ∧ stepped.key "proof" = .ok (.arr steps) ∧
      List.Forall₂ SameStep tactics steps

/-- The step of a tactic, with the line that the tactic starts on. -/
def IsStepOf (lines : List Value) (tactic : Tactic) (step : Value) : Prop :=
  ∃ line state, LineAt lines tactic.start line state ∧ step = tactic.step line state

/-- The proof of a theorem has a step for every tactic that starts within its range. -/
def IsProofOf (lines : List Value) (tactics : List Tactic) (declared : Declared) (entry : Value) : Prop :=
  ∃ steps, entry = declared.stepped steps ∧
    List.Forall₂ (IsStepOf lines) (tactics.filter declared.owns) steps

/-! ### The layouts as maps -/

section Maps

variable {states : LineStates} {line state : Int → Value}

theorem within_eq_ok (declared : Declared) (tactics : List Tactic) :
    within (.int declared.start) (.int declared.stop) (tactics.map Tactic.entry) =
      .ok ((tactics.filter declared.owns).map Tactic.entry) := by
  apply filterM_map_eq_ok
  intro tactic _
  have hstart : startOf tactic.entry = .ok (.int tactic.start) := rfl
  rw [hstart, ok_bind, Value.atMost_int, Value.atMost_int, Declared.owns]
  cases decide (declared.start ≤ tactic.start) with
  | true => rfl
  | false => rfl

theorem group_eq_ok (declared : Declared) (tactics : List Tactic) :
    group (.arr (tactics.map Tactic.entry)) declared.entry =
      .ok (declared.grouped ((tactics.filter declared.owns).map Tactic.entry)) := by
  show within (.int declared.start) (.int declared.stop) (tactics.map Tactic.entry) >>= _ = _
  rw [within_eq_ok]
  rfl

theorem attachState_eq_ok (hstate : ∀ position, states.state (.int position) = .ok (state position))
    (tactic : Tactic) :
    attachState states tactic.entry = .ok (tactic.entryWith (state tactic.start)) := by
  show states.state (.int tactic.start) >>= _ = _
  rw [hstate]
  rfl

/-- Writing the state again changes nothing. -/
theorem attachState_entryWith (hstate : ∀ position, states.state (.int position) = .ok (state position))
    (tactic : Tactic) :
    attachState states (tactic.entryWith (state tactic.start)) =
      .ok (tactic.entryWith (state tactic.start)) := by
  show states.state (.int tactic.start) >>= _ = _
  rw [hstate]
  rfl

theorem overItems_map {α : Type} {before after : α → Value} {change : Value → Except Fault Value}
    (hchange : ∀ a, change (before a) = .ok (after a)) (members : List α) :
    overItems (.arr (members.map before)) change = .ok (.arr (members.map after)) := by
  show (members.map before).mapM change >>= _ = _
  have hmembers : members.mapM (change ∘ before) = .ok (members.map after) :=
    mapM_eq_ok_map fun a _ => hchange a
  rw [List.mapM_map, hmembers]
  rfl

theorem attachStates_grouped {before after : Tactic → Value}
    (hattach : ∀ tactic, attachState states (before tactic) = .ok (after tactic))
    (theorems : List Declared) (tactics : List Tactic) :
    attachStates states (.arr (theorems.map fun declared =>
        declared.grouped ((tactics.filter declared.owns).map before))) =
      .ok (.arr (theorems.map fun declared =>
        declared.grouped ((tactics.filter declared.owns).map after))) := by
  apply overItems_map
  intro declared
  show overItems (.arr ((tactics.filter declared.owns).map before)) (attachState states) >>= _ = _
  rw [overItems_map hattach]
  rfl

theorem step?_eq_ok (hline : ∀ position, states.lineAndState (.int position) =
      .ok (line position, state position)) (declared : Declared) (tactic : Tactic) :
    step? states (.int declared.start) (.int declared.stop) tactic.entry =
      .ok (if declared.owns tactic then
        some (tactic.step (line tactic.start) (state tactic.start)) else none) := by
  have hstart : startOf tactic.entry = .ok (.int tactic.start) := rfl
  rw [step?, hstart, ok_bind, Value.atMost_int, Value.atMost_int, hline, Declared.owns]
  cases decide (declared.start ≤ tactic.start) with
  | false => rfl
  | true =>
      cases decide (tactic.start ≤ declared.stop) with
      | false => rfl
      | true => rfl

theorem proof_eq_ok (hline : ∀ position, states.lineAndState (.int position) =
      .ok (line position, state position)) (declared : Declared) (tactics : List Tactic) :
    proof states (.arr (tactics.map Tactic.entry)) declared.entry =
      .ok (declared.stepped ((tactics.filter declared.owns).map fun tactic =>
        tactic.step (line tactic.start) (state tactic.start))) := by
  have hsteps : (tactics.map Tactic.entry).filterMapM
      (step? states (.int declared.start) (.int declared.stop)) =
        .ok ((tactics.filter declared.owns).map fun tactic =>
          tactic.step (line tactic.start) (state tactic.start)) :=
    filterMapM_map_eq_ok fun tactic _ => step?_eq_ok hline declared tactic
  show (tactics.map Tactic.entry).filterMapM
    (step? states (.int declared.start) (.int declared.stop)) >>= _ = _
  rw [hsteps]
  rfl

variable {declarations trees lines : Value} {theorems : List Declared} {tactics : List Tactic}

theorem build_grouped_eq_ok
    (htheorems : theoremEntries .grouped declarations = .ok (theorems.map Declared.entry))
    (htactics : tacticEntries .grouped trees = .ok (tactics.map Tactic.entry))
    (hstates : LineStates.ofLines lines = .ok states)
    (hstate : ∀ position, states.state (.int position) = .ok (state position)) :
    build .grouped declarations trees lines = .ok (.arr (theorems.map fun declared =>
      declared.grouped ((tactics.filter declared.owns).map fun tactic =>
        tactic.entryWith (state tactic.start)))) := by
  have hgroups : groupAll (.arr (theorems.map Declared.entry)) (.arr (tactics.map Tactic.entry)) =
      .ok (theorems.map fun declared =>
        declared.grouped ((tactics.filter declared.owns).map Tactic.entry)) := by
    show (theorems.map Declared.entry).mapM (group (.arr (tactics.map Tactic.entry))) = _
    rw [List.mapM_map]
    exact mapM_eq_ok_map fun declared _ => group_eq_ok declared tactics
  rw [build, buildGrouped, htheorems, ok_bind, htactics, ok_bind, hstates, ok_bind, hgroups, ok_bind,
    attachStates_grouped (attachState_eq_ok hstate)]

theorem build_stepped_eq_ok
    (htheorems : theoremEntries .stepped declarations = .ok (theorems.map Declared.entry))
    (htactics : tacticEntries .stepped trees = .ok (tactics.map Tactic.entry))
    (hstates : LineStates.ofLines lines = .ok states)
    (hline : ∀ position, states.lineAndState (.int position) = .ok (line position, state position)) :
    build .stepped declarations trees lines = .ok (.arr (theorems.map fun declared =>
      declared.stepped ((tactics.filter declared.owns).map fun tactic =>
        tactic.step (line tactic.start) (state tactic.start)))) := by
  have hproofs : (theorems.map Declared.entry).mapM (proof states (.arr (tactics.map Tactic.entry))) =
      .ok (theorems.map fun declared => declared.stepped ((tactics.filter declared.owns).map fun tactic =>
        tactic.step (line tactic.start) (state tactic.start))) := by
    rw [List.mapM_map]
    exact mapM_eq_ok_map fun declared _ => proof_eq_ok hline declared tactics
  rw [build, htheorems, ok_bind, htactics, ok_bind, hstates, ok_bind]
  show (theorems.map Declared.entry).mapM (proof states (.arr (tactics.map Tactic.entry))) >>= _ = _
  rw [hproofs]
  rfl

end Maps

/-! ### Agreement -/

theorem sameTheorem_grouped_stepped (declared : Declared) (tactics : List Tactic) (line state : Int → Value) :
    SameTheorem
      (declared.grouped (tactics.map fun tactic => tactic.entryWith (state tactic.start)))
      (declared.stepped (tactics.map fun tactic => tactic.step (line tactic.start) (state tactic.start))) := by
  refine ⟨⟨declared.name, rfl, rfl⟩, ⟨declared.type, rfl, rfl⟩, _, _, rfl, rfl, ?_⟩
  rw [List.forall₂_map_left_iff, List.forall₂_map_right_iff, List.forall₂_same]
  intro tactic _ name hname
  simp only [List.mem_cons, List.not_mem_nil, or_false] at hname
  rcases hname with rfl | rfl | rfl | rfl
  · exact ⟨tactic.text, rfl, rfl⟩
  · exact ⟨tactic.before, rfl, rfl⟩
  · exact ⟨tactic.after, rfl, rfl⟩
  · exact ⟨state tactic.start, rfl, rfl⟩

theorem isProofOf_stepped {lines : List Value} {line state : Int → Value}
    (hlineAt : ∀ position, LineAt lines position (line position) (state position)) (tactics : List Tactic)
    (declared : Declared) :
    IsProofOf lines tactics declared (declared.stepped ((tactics.filter declared.owns).map fun tactic =>
      tactic.step (line tactic.start) (state tactic.start))) := by
  refine ⟨_, rfl, ?_⟩
  rw [List.forall₂_map_right_iff, List.forall₂_same]
  exact fun tactic _ => ⟨_, _, hlineAt tactic.start, rfl⟩

/-- The two layouts of a well-formed dump. They have the same theorems with a type, in the same order,
with the same tactics and states; a step of the stepped layout has the line that its tactic starts on;
and the states that the grouped layout writes can be written again. Only a tactic that is no table stops
a build, and then it stops both. -/
theorem layouts_agree {declarations trees lines : List Value}
    (hdeclarations : ∀ declaration ∈ declarations, IsDeclaration declaration)
    (htrees : ∀ tree ∈ trees, IsNode tree) (hlines : ∀ line ∈ lines, IsLine line) :
    (TacticsAreTables trees →
      ∃ grouped stepped,
        build .grouped (.arr declarations) (.arr trees) (.arr lines) = .ok (.arr grouped) ∧
        build .stepped (.arr declarations) (.arr trees) (.arr lines) = .ok (.arr stepped) ∧
        List.Forall₂ SameTheorem grouped
          (stepped.filter fun entry => (entry.part "theorem_type").truthy) ∧
        (∃ theorems tactics,
          theoremEntries .stepped (.arr declarations) = .ok (theorems.map Declared.entry) ∧
          tacticEntries .stepped (.arr trees) = .ok (tactics.map Tactic.entry) ∧
          List.Forall₂ (IsProofOf lines tactics) theorems stepped) ∧
        ∃ states, LineStates.ofLines (.arr lines) = .ok states ∧
          attachStates states (.arr grouped) = .ok (.arr grouped)) ∧
    (¬TacticsAreTables trees →
      ∃ fault, ∀ layout, build layout (.arr declarations) (.arr trees) (.arr lines) = .error fault) := by
  obtain ⟨theorems, hstepped, hgrouped⟩ := theoremEntries_eq_ok hdeclarations
  constructor
  · intro htables
    obtain ⟨tactics, htactics⟩ := tacticEntries_eq_ok htrees htables
    obtain ⟨states, hstates, hholds⟩ := LineStates.ofLines_holds hlines
    choose line state hlineAt hline hstate using hholds.lineAt
    have hagain := attachStates_grouped (attachState_entryWith hstate) (theorems.filter (·.type.truthy))
      tactics
    refine ⟨_, _, build_grouped_eq_ok hgrouped (htactics .grouped) hstates hstate,
      build_stepped_eq_ok hstepped (htactics .stepped) hstates hline, ?_,
      ⟨theorems, tactics, hstepped, htactics .stepped, ?_⟩, states, hstates, hagain⟩
    · have htyped : (fun entry : Value => (entry.part "theorem_type").truthy) ∘ (fun declared : Declared =>
          declared.stepped ((tactics.filter declared.owns).map fun tactic =>
            tactic.step (line tactic.start) (state tactic.start))) = fun declared => declared.type.truthy :=
        rfl
      rw [List.filter_map, htyped, List.forall₂_map_left_iff, List.forall₂_map_right_iff, List.forall₂_same]
      exact fun declared _ => sameTheorem_grouped_stepped declared _ line state
    · rw [List.forall₂_map_right_iff, List.forall₂_same]
      exact fun declared _ => isProofOf_stepped hlineAt tactics declared
  · intro htables
    obtain ⟨fault, hfault⟩ := tacticEntries_eq_error htrees htables
    refine ⟨fault, fun layout => ?_⟩
    cases layout with
    | grouped =>
        rw [build, buildGrouped, hgrouped, ok_bind, hfault]
        rfl
    | stepped =>
        rw [build, hstepped, ok_bind, hfault]
        rfl

section Overlap

/-- Two theorems that overlap, the first without a type, and a third that takes the default range. -/
def overlapDeclarations : List Value :=
  [.obj [("name", .str "second"), ("type", .str "q"), ("range", .arr [.int 4, .int 9])],
    .obj [("name", .str "untyped"), ("range", .arr [.int 4, .int 20])],
    .obj [("name", .str "whole"), ("type", .str "p"), ("range", .null)]]

/-- A tree of three tactics; the inner ones start before and on a line. -/
def overlapTrees : List Value :=
  [.obj [("info", .obj [("tactic", .obj [("before", .str "a"), ("after", .str "b")])]),
    ("ref", .obj [("pp", .str "simp"), ("range", .arr [.int 7, .int 8])]),
    ("children", .arr [
      .obj [("info", .obj [("tactic", .obj [])]), ("ref", .obj [("range", .arr [.int 5, .int 6])])],
      .obj [("info", .obj [("term", .null)])],
      .obj [("info", .obj [("tactic", .obj [("after", .null)])])]])]]

/-- Two lines with one start, out of order, and one without a start. -/
def overlapLines : List Value :=
  [.obj [("start", .int 7), ("state", .str "late")], .obj [("start", .int 3), ("state", .str "old")],
    .obj [("state", .str "nowhere")], .obj [("start", .int 3), ("state", .str "new")]]

theorem overlapDeclarations_shape : ∀ declaration ∈ overlapDeclarations, IsDeclaration declaration := by
  simp only [overlapDeclarations, List.forall_mem_cons, List.not_mem_nil, false_imp_iff, implies_true,
    and_true]
  refine ⟨⟨⟨_, rfl⟩, .inr ⟨4, 9, rfl⟩⟩, ⟨⟨_, rfl⟩, .inr ⟨4, 20, rfl⟩⟩, ⟨⟨_, rfl⟩, .inl rfl⟩⟩

theorem overlapLines_shape : ∀ line ∈ overlapLines, IsLine line := by
  simp only [overlapLines, List.forall_mem_cons, List.not_mem_nil, false_imp_iff, implies_true, and_true]
  exact ⟨⟨⟨_, rfl⟩, .inr ⟨7, rfl⟩⟩, ⟨⟨_, rfl⟩, .inr ⟨3, rfl⟩⟩, ⟨⟨_, rfl⟩, .inl rfl⟩,
    ⟨⟨_, rfl⟩, .inr ⟨3, rfl⟩⟩⟩

theorem overlapTrees_shape : ∀ tree ∈ overlapTrees, IsNode tree := by
  have hleaf {fields : Fields} (hinfo : ∀ info, Fields.get? fields "info" = some info → info.IsRecord)
      (href : ∀ ref, Fields.get? fields "ref" = some ref → ref.IsRecord ∧ IsRange (ref.part "range"))
      (hchildren : Fields.get? fields "children" = none) : IsNode (.obj fields) := by
    refine .node hinfo href (fun children hget => ?_) fun items hget => ?_
    · rw [hchildren] at hget
      cases hget
    · rw [hchildren] at hget
      cases hget
  simp only [overlapTrees, List.forall_mem_cons, List.not_mem_nil, false_imp_iff, implies_true, and_true]
  refine .node ?_ ?_ ?_ ?_
  · rintro info ⟨⟩
    exact ⟨_, rfl⟩
  · rintro ref ⟨⟩
    exact ⟨⟨_, rfl⟩, .inr ⟨7, 8, rfl⟩⟩
  · rintro children ⟨⟩
    exact ⟨_, rfl⟩
  · rintro items ⟨⟩
    simp only [List.forall_mem_cons, List.not_mem_nil, false_imp_iff, implies_true, and_true]
    refine ⟨hleaf ?_ ?_ rfl, hleaf ?_ ?_ rfl, hleaf ?_ ?_ rfl⟩
    · rintro info ⟨⟩
      exact ⟨_, rfl⟩
    · rintro ref ⟨⟩
      exact ⟨⟨_, rfl⟩, .inr ⟨5, 6, rfl⟩⟩
    · rintro info ⟨⟩
      exact ⟨_, rfl⟩
    · rintro ref ⟨⟩
    · rintro info ⟨⟩
      exact ⟨_, rfl⟩
    · rintro ref ⟨⟩

theorem overlapTrees_tables : TacticsAreTables overlapTrees := by
  have hleaf {fields : Fields} (hchildren : Fields.get? fields "children" = none)
      (htable : TacticIsTable (.obj fields)) (node : Value) (hnode : InTree node (.obj fields)) :
      TacticIsTable node := by
    rcases inTree_obj.1 hnode with rfl | ⟨items, hitems, -⟩
    · exact htable
    · rw [hchildren] at hitems
      cases hitems
  intro tree htree node hnode
  obtain rfl := List.mem_singleton.1 htree
  rcases inTree_obj.1 hnode with rfl | ⟨items, hitems, item, hitem, hnode⟩
  · rintro tactic ⟨⟩
    exact ⟨_, rfl⟩
  · cases hitems
    simp only [List.mem_cons, List.not_mem_nil, or_false] at hitem
    rcases hitem with rfl | rfl | rfl
    · refine hleaf rfl ?_ node hnode
      rintro tactic ⟨⟩
      exact ⟨_, rfl⟩
    · refine hleaf rfl ?_ node hnode
      rintro tactic ⟨⟩
    · refine hleaf rfl ?_ node hnode
      rintro tactic ⟨⟩
      exact ⟨_, rfl⟩

theorem overlap_layouts_agree :
    (∀ declaration ∈ overlapDeclarations, IsDeclaration declaration) ∧
    (∀ tree ∈ overlapTrees, IsNode tree) ∧ (∀ line ∈ overlapLines, IsLine line) ∧
    TacticsAreTables overlapTrees ∧
    ∃ grouped stepped,
      build .grouped (.arr overlapDeclarations) (.arr overlapTrees) (.arr overlapLines) = .ok (.arr grouped) ∧
      build .stepped (.arr overlapDeclarations) (.arr overlapTrees) (.arr overlapLines) = .ok (.arr stepped) ∧
      List.Forall₂ SameTheorem grouped
        (stepped.filter fun entry => (entry.part "theorem_type").truthy) := by
  refine ⟨overlapDeclarations_shape, overlapTrees_shape, overlapLines_shape, overlapTrees_tables, ?_⟩
  obtain ⟨grouped, stepped, hgrouped, hstepped, hsame, -⟩ :=
    (layouts_agree overlapDeclarations_shape overlapTrees_shape overlapLines_shape).1 overlapTrees_tables
  exact ⟨grouped, stepped, hgrouped, hstepped, hsame⟩

end Overlap

end ProofDump.Dataset
