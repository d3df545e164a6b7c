import Mathlib.Data.List.Infix
import ProofDump.Text.Search

/-!
# Searches and what they find

A search is described by what it finds: a part that starts a text, a part that occurs in it. Every other
module asks for these facts and not for how a search goes through a text.
-/

namespace ProofDump.Text

/-! ### Beginnings and parts -/

theorem dropPrefix?_eq_some_iff {pattern text rest : List Char} :
    dropPrefix? pattern text = some rest ↔ text = pattern ++ rest := by
  fun_induction dropPrefix? pattern text with
  | case1 text => simp [eq_comm]
  | case2 => simp
  | case3 first pattern text ih => simp [ih]
  | case4 first pattern other text hne =>
      simp only [reduceCtorEq, List.cons_append, List.cons.injEq, false_iff, not_and]
      exact fun heq => absurd heq.symm hne

theorem startsWith_iff {pattern text : List Char} :
    startsWith pattern text = true ↔ pattern <+: text := by
  rw [startsWith, Option.isSome_iff_exists]
  simp only [dropPrefix?_eq_some_iff]
  exact exists_congr fun rest => eq_comm

theorem cutFirst?_isSome_iff {pattern text : List Char} :
    (cutFirst? pattern text).isSome = true ↔ pattern <:+: text := by
  induction text with
  | nil =>
      rw [List.infix_nil]
      cases pattern with
      | nil => simp [cutFirst?, dropPrefix?]
      | cons first pattern => simp [cutFirst?, dropPrefix?]
  | cons c text ih =>
      rw [cutFirst?, List.infix_cons_iff, ← ih, ← startsWith_iff, startsWith]
      cases dropPrefix? pattern (c :: text) with
      | some rest => simp
      | none => simp

/-- Before the first occurrence of a part nothing stands but what stands before every other one. -/
theorem cutFirst?_eq_some {pattern text before after : List Char}
    (hcut : cutFirst? pattern text = some (before, after)) :
    text = before ++ pattern ++ after ∧
      ∀ front back, text = front ++ pattern ++ back → before <+: front := by
  induction text generalizing before with
  | nil =>
      rw [cutFirst?] at hcut
      split at hcut
      · next rest hstarts =>
          cases hcut
          exact ⟨dropPrefix?_eq_some_iff.1 hstarts, fun _ _ _ => List.nil_prefix⟩
      · cases hcut
  | cons c text ih =>
      rw [cutFirst?] at hcut
      split at hcut
      · next rest hstarts =>
          cases hcut
          exact ⟨dropPrefix?_eq_some_iff.1 hstarts, fun _ _ _ => List.nil_prefix⟩
      · next hstarts =>
          obtain ⟨⟨later, rest⟩, hlater, hsame⟩ := Option.map_eq_some_iff.1 hcut
          cases hsame
          obtain ⟨rfl, hfirst⟩ := ih hlater
          refine ⟨by simp, fun front back htext => ?_⟩
          cases front with
          | nil =>
              rw [List.nil_append] at htext
              rw [dropPrefix?_eq_some_iff.2 htext] at hstarts
              cases hstarts
          | cons first front =>
              obtain ⟨rfl, hrest⟩ := List.cons.inj htext
              exact (List.prefix_cons_inj c).2 (hfirst front back hrest)

theorem contains_iff {pattern text : List Char} : contains pattern text = true ↔ pattern <:+: text :=
  cutFirst?_isSome_iff

theorem contains_singleton {c : Char} {text : List Char} : contains [c] text = true ↔ c ∈ text := by
  rw [contains_iff, List.singleton_infix_iff]

/-! ### Replacing -/

theorem splitFrom_ne_nil (pattern piece : List Char) (skip : Nat) (text : List Char) :
    splitFrom pattern piece skip text ≠ [] := by
  fun_induction splitFrom pattern piece skip text with
  | case1 => simp
  | case2 piece c rest skip ih => exact ih
  | case3 piece c rest hstarts ih => simp
  | case4 piece c rest hstarts ih => exact ih

theorem splitFrom_skip (pattern piece : List Char) (skip : Nat) (text : List Char) :
    splitFrom pattern piece skip text = splitFrom pattern piece 0 (text.drop skip) := by
  induction text generalizing skip with
  | nil => simp [splitFrom]
  | cons c text ih =>
      cases skip with
      | zero => rfl
      | succ skip => exact ih skip

theorem intercalate_splitFrom (pattern replacement piece : List Char) (skip : Nat) (text : List Char) :
    replacement.intercalate (splitFrom pattern piece skip text) =
      piece.reverse ++ replacement.intercalate (splitFrom pattern [] skip text) := by
  induction text generalizing piece skip with
  | nil => simp [splitFrom]
  | cons c text ih =>
      cases skip with
      | succ skip => exact ih piece skip
      | zero =>
          rw [splitFrom, splitFrom]
          split
          · obtain ⟨next, others, hnext⟩ :=
              List.exists_cons_of_ne_nil (splitFrom_ne_nil pattern [] (pattern.length - 1) text)
            rw [hnext, List.intercalate_cons_cons, List.intercalate_cons_cons]
            simp
          · rw [ih (c :: piece), ih [c]]
            simp

@[simp] theorem replace_nil (pattern replacement : List Char) : replace pattern replacement [] = [] := by
  simp [replace, split, splitFrom]

theorem replace_cons {pattern : List Char} (replacement : List Char) {c : Char} {text : List Char}
    (hpattern : ¬ pattern <+: c :: text) :
    replace pattern replacement (c :: text) = c :: replace pattern replacement text := by
  rw [replace, split, splitFrom, if_neg (startsWith_iff.not.2 hpattern), intercalate_splitFrom]
  rfl

theorem replace_append {pattern : List Char} (hpattern : pattern ≠ []) (replacement text : List Char) :
    replace pattern replacement (pattern ++ text) = replacement ++ replace pattern replacement text := by
  obtain ⟨c, rest, rfl⟩ := List.exists_cons_of_ne_nil hpattern
  have hstarts : startsWith (c :: rest) (c :: (rest ++ text)) = true :=
    startsWith_iff.2 (List.prefix_append (c :: rest) text)
  obtain ⟨next, others, hnext⟩ :=
    List.exists_cons_of_ne_nil (splitFrom_ne_nil (c :: rest) [] 0 text)
  rw [List.cons_append, replace, replace, split, split, splitFrom, if_pos hstarts, splitFrom_skip,
    List.length_cons, Nat.add_sub_cancel, List.drop_left, hnext, List.intercalate_cons_cons]
  rfl

/-- Where there is nothing to replace, nothing is replaced. -/
theorem replace_of_not_infix {pattern text : List Char} (replacement : List Char)
    (hpattern : ¬ pattern <:+: text) : replace pattern replacement text = text := by
  induction text with
  | nil => exact replace_nil pattern replacement
  | cons c text ih =>
      rw [List.infix_cons_iff, not_or] at hpattern
      rw [replace_cons replacement hpattern.1, ih hpattern.2]

end ProofDump.Text
