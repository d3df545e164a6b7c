import Mathlib.Tactic.MkIffOfInductiveProp
import ProofDump.Proofs.InfoTree.Roots
import ProofDump.Proofs.InfoTree.Terms

/-!
# What is collected from typed trees

In a tree as it is declared every goal and every term has its text, and the text of a reference was printed or
is null. What the walks collect is handed through from the nodes, so the tactics, the roots and the terms of a
typed forest consist of texts too.
-/

namespace ProofDump

namespace Value

def isText : Value → Bool
  | str _ => true
  | _ => false

def isTextOrNull : Value → Bool
  | str _ => true
  | null => true
  | _ => false

/-- A list of texts. -/
def isTexts : Value → Bool
  | arr items => items.all isText
  | _ => false

/-- The members met when walking through a loaded value that can be walked through. -/
def listed (value : Value) : List Value :=
  match value.loadedItems with
  | .ok items => items
  | .error _ => []

end Value

/-- The texts of a tactic are texts. -/
structure Tactic.IsPrintable (tactic : Tactic) : Prop where
  text : tactic.pp.isTextOrNull = true
  before : tactic.before.isTexts = true
  after : tactic.after.isTexts = true

/-- A root with its tactic and its steps, all of them printable. -/
inductive Root.IsPrintable : Root → Prop
  | intro {step : Tactic} {children : List Tactic} (hstep : step.IsPrintable)
      (hchildren : ∀ child ∈ children, child.IsPrintable) : IsPrintable ⟨some step, some children⟩

namespace InfoTree

/-- The parts of a node that are texts are texts: the text of its reference, unless it is null, those of the
goals before and after a tactic, and the type of a term. -/
@[mk_iff]
structure IsTyped (tree : InfoTree) : Prop where
  text : (tree.ref.part "pp").isTextOrNull = true
  before : ∀ goal ∈ ((tree.info.part "tactic").part "before").listed, (goal.part "pp").isText = true
  after : ∀ goal ∈ ((tree.info.part "tactic").part "after").listed, (goal.part "pp").isText = true
  type : (tree.info.part "term").present = true → ((tree.info.part "term").part "type").isText = true

instance (tree : InfoTree) : Decidable tree.IsTyped := decidable_of_iff _ (isTyped_iff tree).symm

/-! ### Tactics -/

theorem goalTexts_isTexts {goals texts : Value} (htexts : goalTexts goals = .ok texts)
    (hgoals : ∀ goal ∈ goals.listed, (goal.part "pp").isText = true) : texts.isTexts = true := by
  obtain ⟨items, hitems, htexts⟩ := bind_eq_ok.1 htexts
  obtain ⟨parts, hparts, htexts⟩ := bind_eq_ok.1 htexts
  cases htexts
  rw [Value.isTexts, List.all_eq_true]
  intro text htext
  obtain ⟨goal, hgoal, hattr⟩ := exists_of_mem_mapM hparts htext
  obtain ⟨-, rfl⟩ := Value.attr_eq_ok_iff.1 hattr
  refine hgoals goal ?_
  rw [Value.listed, hitems]
  exact hgoal

/-- What reading a tactic can come to: several tactics where one is asked for, a range within the one it is
compared with, the word `by`, or the tactic. -/
inductive Answers (lines : LineStarts) (ref part : Value) (single : Bool) (previous : Option FileRange) :
    Option Tactic → Prop
  | several (hsingle : single = true) (hcompound : isCompound (ref.part "pp") = .ok true) :
      Answers lines ref part single previous none
  | covered {range given : FileRange} (hrange : FileRange.ofValue lines (ref.part "range") = .ok range)
      (hgiven : given ∈ previous) (hcovers : given.covers range = true) :
      Answers lines ref part single previous none
  | word (hby : ref.part "pp" = .str "by") : Answers lines ref part single previous none
  | taken {range : FileRange} {before after : Value}
      (hsimple : single = true → isCompound (ref.part "pp") = .ok false)
      (hrange : FileRange.ofValue lines (ref.part "range") = .ok range) (hby : ref.part "pp" ≠ .str "by")
      (hbefore : goalTexts (part.part "before") = .ok before)
      (hafter : goalTexts (part.part "after") = .ok after) :
      Answers lines ref part single previous (some ⟨range, ref.part "pp", before, after⟩)

theorem answers_of_rest {lines : LineStarts} {ref part : Value} {single : Bool} {previous : Option FileRange}
    {answer : Option Tactic} (hsimple : single = true → isCompound (ref.part "pp") = .ok false)
    (hanswer : (do
      let range ← FileRange.ofValue lines (← ref.attr "range")
      if previous.any (·.covers range) then return none
      if (ref.part "pp").same (.str "by") then return none
      let before ← goalTexts (← part.attr "before")
      let after ← goalTexts (← part.attr "after")
      return some ⟨range, ref.part "pp", before, after⟩ : Except Fault (Option Tactic)) = .ok answer) :
    Answers lines ref part single previous answer := by
  replace ⟨_, hanswer⟩ := Value.attr_bind_eq_ok.1 hanswer
  replace ⟨range, hrange, hanswer⟩ := bind_eq_ok.1 hanswer
  split at hanswer
  · rename_i hany
    cases hanswer
    obtain ⟨given, hgiven, hcovers⟩ := (Option.any_eq_true _ _).1 hany
    exact .covered hrange hgiven hcovers
  · split at hanswer
    · rename_i hby
      cases hanswer
      exact .word (Value.same_str_iff.1 hby)
    · rename_i hby
      replace ⟨_, hanswer⟩ := Value.attr_bind_eq_ok.1 hanswer
      replace ⟨before, hbefore, hanswer⟩ := bind_eq_ok.1 hanswer
      replace ⟨_, hanswer⟩ := Value.attr_bind_eq_ok.1 hanswer
      replace ⟨after, hafter, hanswer⟩ := bind_eq_ok.1 hanswer
      cases hanswer
      exact .taken hsimple hrange (fun hword => hby (Value.same_str_iff.2 hword)) hbefore hafter

theorem answers_of_tactic? {lines : LineStarts} {ref part : Value} {single : Bool} {previous : Option FileRange}
    {answer : Option Tactic} (hanswer : tactic? lines ref part single previous = .ok answer) :
    Answers lines ref part single previous answer := by
  unfold tactic? at hanswer
  replace ⟨_, hanswer⟩ := Value.attr_bind_eq_ok.1 hanswer
  cases single with
  | false => exact answers_of_rest (fun hsingle => by cases hsingle) hanswer
  | true =>
      obtain ⟨compound, hcompound, hanswer⟩ := bind_eq_ok.1 hanswer
      cases compound with
      | true =>
          cases hanswer
          exact .several rfl hcompound
      | false => exact answers_of_rest (fun _ => hcompound) hanswer

/-- A node that is no tactic is no step, and otherwise its tactic is read. -/
theorem step?_cases {lines : LineStarts} {previous : Option FileRange} {tree : InfoTree} {answer : Option Tactic}
    (hanswer : step? lines previous tree.info tree.ref = .ok answer) :
    tree.isTactic = false ∧ answer = none ∨
      tree.isTactic = true ∧ Answers lines tree.ref (tree.info.part "tactic") true previous answer := by
  obtain ⟨part, hpart, hanswer⟩ := bind_eq_ok.1 hanswer
  have hsome := Value.presentAttr_eq_ok hpart
  split at hsome
  · rename_i hpresent
    cases hsome
    exact .inr ⟨hpresent, answers_of_tactic? hanswer⟩
  · rename_i habsent
    cases hsome
    cases hanswer
    exact .inl ⟨Bool.eq_false_iff.2 habsent, rfl⟩

theorem IsTyped.isPrintable {tree : InfoTree} (htyped : tree.IsTyped) {lines : LineStarts} {single : Bool}
    {previous : Option FileRange} {found : Tactic}
    (hfound : Answers lines tree.ref (tree.info.part "tactic") single previous (some found)) :
    found.IsPrintable := by
  cases hfound with
  | taken hsimple hrange hby hbefore hafter =>
      exact ⟨htyped.text, goalTexts_isTexts hbefore htyped.before, goalTexts_isTexts hafter htyped.after⟩

theorem IsTyped.step?_isPrintable {tree : InfoTree} (htyped : tree.IsTyped) {lines : LineStarts}
    {previous : Option FileRange} {found : Tactic}
    (hfound : step? lines previous tree.info tree.ref = .ok (some found)) : found.IsPrintable := by
  rcases step?_cases hfound with ⟨-, hnone⟩ | ⟨-, hanswers⟩
  · cases hnone
  · exact htyped.isPrintable hanswers

/-! ### Steps and roots -/

theorem steps_cons_inv {lines : LineStarts} {previous : Option FileRange} {tree : InfoTree}
    {rest : List InfoTree} {found : List Tactic} (hfound : steps lines previous (tree :: rest) = .ok found) :
    ∃ step below others, step? lines previous tree.info tree.ref = .ok step ∧
      steps lines (nextRange previous step) tree.children = .ok below ∧
      steps lines (nextRange previous step) rest = .ok others ∧ found = step.toList ++ below ++ others := by
  cases tree with
  | other value =>
      rw [steps, stepsIn] at hfound
      cases hfound
  | node info ref children unlisted =>
      rw [steps, stepsIn] at hfound
      cases hstep : step? lines previous info ref with
      | error fault => simp [hstep] at hfound
      | ok step =>
          cases hlisted : unlisted.filter Value.present with
          | some value => simp [hstep, hlisted] at hfound
          | none =>
              cases hbelow : steps lines (nextRange previous step) children with
              | error fault => simp [hstep, hlisted, hbelow] at hfound
              | ok below =>
                  cases hothers : steps lines (nextRange previous step) rest with
                  | error fault => simp [hstep, hlisted, hbelow, hothers] at hfound
                  | ok others =>
                      simp only [hstep, hlisted, hbelow, hothers, Except.ok.injEq] at hfound
                      exact ⟨step, below, others, hstep, hbelow, hothers, hfound.symm⟩

theorem steps_isPrintable {lines : LineStarts} {previous : Option FileRange} {forest : List InfoTree}
    {found : List Tactic} (htyped : ∀ tree ∈ subtrees forest, tree.IsTyped)
    (hfound : steps lines previous forest = .ok found) : ∀ step ∈ found, step.IsPrintable := by
  induction forest using forestInduction generalizing previous found with
  | nil =>
      cases hfound
      exact fun step hstep => absurd hstep List.not_mem_nil
  | cons tree rest below others =>
      obtain ⟨own, foundBelow, foundRest, hown, hbelow, hrest, rfl⟩ := steps_cons_inv hfound
      intro step hstep
      rcases List.mem_append.1 hstep with hstep | hstep
      · rcases List.mem_append.1 hstep with hstep | hstep
        · rw [Option.mem_toList.1 hstep] at hown
          exact (htyped tree (mem_subtrees_self tree rest)).step?_isPrintable hown
        · exact below (fun child hchild => htyped child (subtrees_children_subset tree rest hchild)) hbelow
            step hstep
      · exact others (fun other hother => htyped other (subtrees_tail_subset tree rest hother)) hrest step hstep

theorem rootOf_isPrintable {lines : LineStarts} {tree : InfoTree} {own : Root}
    (htyped : tree.IsTyped) (hbelow : ∀ child ∈ subtrees tree.children, child.IsTyped)
    (hown : rootOf .outerFirst lines tree = .ok own) : own.IsPrintable := by
  obtain ⟨step, found, hstep, hfound, hsome, rfl⟩ := rootOf_eq_ok hown
  cases step with
  | none => exact absurd rfl (hsome rfl)
  | some step => exact .intro (htyped.isPrintable (answers_of_tactic? hstep)) (steps_isPrintable hbelow hfound)

theorem rootsAfter_isPrintable {lines : LineStarts} {forest : List InfoTree} {found result : List Root}
    (htyped : ∀ tree ∈ subtrees forest, tree.IsTyped) (hfound : ∀ root ∈ found, root.IsPrintable)
    (hresult : rootsAfter .outerFirst lines found forest = .ok result) : ∀ root ∈ result, root.IsPrintable := by
  induction forest using forestInduction generalizing found result with
  | nil =>
      rw [rootsAfter] at hresult
      exact fun root hroot => hfound root ((sortRoots_eq_ok hresult).1.mem_iff.1 hroot)
  | cons tree rest below others =>
      have hbelow := fun child hchild => htyped child (subtrees_children_subset tree rest hchild)
      have hrest := fun other hother => htyped other (subtrees_tail_subset tree rest hother)
      rcases rootsAfter_cons_eq_ok hresult with ⟨-, own, hown, rfl⟩ | ⟨-, inner, hinner, hothers⟩
      · have hprintable := rootOf_isPrintable (htyped tree (mem_subtrees_self tree rest)) hbelow hown
        exact List.forall_mem_append.2 ⟨hfound, List.forall_mem_singleton.2 hprintable⟩
      · have hinnerPrintable := below hbelow (List.forall_mem_nil _) hinner
        exact others hrest (List.forall_mem_append.2 ⟨hfound, hinnerPrintable⟩) hothers

/-! ### Terms -/

theorem terms_isText {lines : LineStarts} {forest : List InfoTree} {found : List Term}
    (htyped : ∀ tree ∈ subtrees forest, tree.IsTyped) (hfound : terms lines forest = (found, none)) :
    ∀ term ∈ found, term.type.isText = true := by
  induction forest using forestInduction generalizing found with
  | nil =>
      rw [terms] at hfound
      cases hfound
      exact List.forall_mem_nil _
  | cons tree rest below others =>
      have hbelow := fun child hchild => htyped child (subtrees_children_subset tree rest hchild)
      have hrest := fun other hother => htyped other (subtrees_tail_subset tree rest hother)
      obtain ⟨later, hlater, ⟨term, rfl, htest, hterm⟩ | ⟨-, inner, hinner, rfl⟩⟩ := terms_cons_eq hfound
      · have htext := (htyped tree (mem_subtrees_self tree rest)).type (isTerm_iff.1 htest).1
        exact List.forall_mem_cons.2 ⟨hterm.type ▸ htext, others hrest hlater⟩
      · exact List.forall_mem_append.2 ⟨below hbelow hinner, others hrest hlater⟩

end InfoTree

end ProofDump
