import Mathlib.Data.List.Forall2
import ProofDump.InfoTree.Terms
import ProofDump.Proofs.Except
import ProofDump.Proofs.InfoTree.Forest

/-!
# Collected terms are the outermost identifiers

A walk over a forest stops at each term it finds, so what it collects, in preorder, are the identifiers that
have no identifier above them (`terms_collected`).
-/

namespace ProofDump.InfoTree

/-- The node is an identifier with a type of its own and no expected one. -/
def isTerm (tree : InfoTree) : Bool :=
  (tree.info.part "term").present && (tree.ref.part "kind").same (.arr [.str "ident"]) &&
    ((tree.info.part "term").part "expected_type").isNull

/-- The term has the range of the node, and the text and the type of its term. -/
structure IsTermOf (lines : LineStarts) (tree : InfoTree) (term : Term) : Prop where
  range : FileRange.ofValue lines (tree.ref.part "range") = .ok term.range
  ident : (tree.info.part "term").part "value" = term.ident
  type : (tree.info.part "term").part "type" = term.type

theorem isTerm_iff {tree : InfoTree} :
    tree.isTerm = true ↔ (tree.info.part "term").present = true ∧
      (tree.ref.part "kind").same (.arr [.str "ident"]) = true ∧
        ((tree.info.part "term").part "expected_type").isNull = true := by
  rw [isTerm, Bool.and_eq_true, Bool.and_eq_true, and_assoc]

theorem term?_eq_ok {lines : LineStarts} (tree : InfoTree) {answer : Option Term}
    (hterm : term? lines tree.info tree.ref = .ok answer) :
    (answer = none ∧ tree.isTerm = false) ∨
      ∃ term, answer = some term ∧ tree.isTerm = true ∧ IsTermOf lines tree term := by
  rw [← Bool.not_eq_true, isTerm_iff]
  replace ⟨part, hpart, hterm⟩ := bind_eq_ok.1 hterm
  have hsome := Value.presentAttr_eq_ok hpart
  split at hsome
  · rename_i hpresent
    subst hsome
    replace ⟨_, hterm⟩ := Value.attr_bind_eq_ok.1 hterm
    split at hterm
    · rename_i hother
      cases hterm
      exact .inl ⟨rfl, fun htest => by rw [htest.2.1] at hother; cases hother⟩
    · rename_i hident
      replace ⟨_, hterm⟩ := Value.attr_bind_eq_ok.1 hterm
      split at hterm
      · rename_i hexpects
        cases hterm
        exact .inl ⟨rfl, fun htest => by rw [htest.2.2] at hexpects; cases hexpects⟩
      · rename_i hfree
        replace ⟨_, hterm⟩ := Value.attr_bind_eq_ok.1 hterm
        replace ⟨range, hrange, hterm⟩ := bind_eq_ok.1 hterm
        replace ⟨_, hterm⟩ := Value.attr_bind_eq_ok.1 hterm
        replace ⟨_, hterm⟩ := Value.attr_bind_eq_ok.1 hterm
        cases hterm
        rw [Bool.not_eq_true', Bool.not_eq_false] at hident hfree
        exact .inr ⟨_, rfl, ⟨hpresent, hident, hfree⟩, hrange, rfl, rfl⟩
  · rename_i habsent
    subst hsome
    cases hterm
    exact .inl ⟨rfl, fun htest => habsent htest.1⟩

/-- What a walk without a fault collects of the first tree: the term that it is, or else what is below it. -/
theorem terms_cons_eq {lines : LineStarts} {tree : InfoTree} {rest : List InfoTree} {found : List Term}
    (hfound : terms lines (tree :: rest) = (found, none)) :
    ∃ others, terms lines rest = (others, none) ∧
      ((∃ term, found = term :: others ∧ tree.isTerm = true ∧ IsTermOf lines tree term) ∨
        tree.isTerm = false ∧ ∃ below, terms lines tree.children = (below, none) ∧ found = below ++ others) := by
  cases tree with
  | other value =>
      rw [terms] at hfound
      cases hfound
  | node info ref children unlisted =>
      rw [terms] at hfound
      split at hfound
      · cases hfound
      · rename_i term hterm
        have hfirst : found = term :: (terms lines rest).1 := (congrArg Prod.fst hfound).symm
        have hrest : (terms lines rest).2 = none := congrArg Prod.snd hfound
        rcases term?_eq_ok (node info ref children unlisted) hterm with ⟨hnone, -⟩ | ⟨own, hown, hterm⟩
        · cases hnone
        · cases hown
          exact ⟨_, Prod.ext rfl hrest, .inl ⟨term, hfirst, hterm⟩⟩
      · rename_i hterm
        have htest : (node info ref children unlisted).isTerm = false := by
          rcases term?_eq_ok (node info ref children unlisted) hterm with ⟨-, htest⟩ | ⟨own, hown, -⟩
          · exact htest
          · cases hown
        split at hfound
        · cases hfound
        · split at hfound
          · cases hfound
          · rename_i below hbelow
            have hfirst : found = below ++ (terms lines rest).1 := (congrArg Prod.fst hfound).symm
            have hrest : (terms lines rest).2 = none := congrArg Prod.snd hfound
            exact ⟨_, Prod.ext rfl hrest, .inr ⟨htest, below, hbelow, hfirst⟩⟩

/-- The terms that are collected are those of the identifiers with no identifier above them, in preorder. -/
theorem terms_collected {lines : LineStarts} {forest : List InfoTree} {found : List Term}
    (hfound : terms lines forest = (found, none)) {above : List InfoTree}
    (habove : ∀ outer ∈ above, outer.isTerm = false) :
    List.Forall₂ (IsTermOf lines) (outermostOf isTerm above forest) found := by
  induction forest using forestInduction generalizing found above with
  | nil =>
      rw [terms] at hfound
      cases hfound
      exact .nil
  | cons tree rest below others =>
      rw [outermostOf_cons habove]
      obtain ⟨found', hothers, ⟨term, rfl, htest, hterm⟩ | ⟨htest, inner, hinner, rfl⟩⟩ := terms_cons_eq hfound
      · rw [if_pos htest]
        exact .cons hterm (others hothers habove)
      · rw [htest, if_neg Bool.false_ne_true]
        exact List.rel_append (below hinner (List.forall_mem_cons.2 ⟨htest, habove⟩)) (others hothers habove)

end ProofDump.InfoTree
