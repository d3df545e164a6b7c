import Mathlib.Data.List.Lex
import Mathlib.Data.String.Basic
import ProofDump.Text.Halves

/-!
# Held texts

Holding a text loses nothing and keeps the order of texts, and a held text without halves is written as
it was. `IsHeld` says how texts that were read come about: character by character and half by half, so
that such a text either is the held form of a text or has a half in it.
-/

namespace ProofDump.Text

theorem markGuard_ne_halfMark : markGuard ≠ halfMark := by decide

theorem holdChar_of_ne {c : Char} (hc : c ≠ halfMark) : holdChar c = [c] := if_neg hc

theorem holdChar_halfMark : holdChar halfMark = [halfMark, markGuard] := if_pos rfl

theorem hold_cons (c : Char) (text : List Char) : hold (c :: text) = holdChar c ++ hold text := rfl

theorem hold_append (first second : List Char) : hold (first ++ second) = hold first ++ hold second :=
  List.flatMap_append

/-- The held form of a text. -/
def held (text : String) : String := String.ofList (hold text.toList)

theorem hold_of_notMem {text : List Char} (htext : halfMark ∉ text) : hold text = text := by
  induction text with
  | nil => rfl
  | cons c text ih =>
      rw [List.mem_cons, not_or] at htext
      rw [hold_cons, holdChar_of_ne (Ne.symm htext.1), ih htext.2]
      rfl

/-! ### Halves -/

theorem hasHalf_cons_of_ne {c : Char} (hc : c ≠ halfMark) (text : List Char) :
    hasHalf (c :: text) = hasHalf text := by
  cases text with
  | nil => rfl
  | cons d text =>
      have hnone : halfOf? c d = none := if_neg fun h => hc h.1
      rw [hasHalf, hnone]
      rfl

theorem hasHalf_hold (text : List Char) : hasHalf (hold text) = false := by
  induction text with
  | nil => rfl
  | cons c text ih =>
      by_cases hc : c = halfMark
      · have hguard : halfOf? halfMark markGuard = none := by decide
        rw [hold_cons, hc, holdChar_halfMark, List.cons_append, List.cons_append, hasHalf, hguard,
          hasHalf_cons_of_ne markGuard_ne_halfMark]
        exact ih
      · rw [hold_cons, holdChar_of_ne hc, List.cons_append, hasHalf_cons_of_ne hc]
        exact ih

theorem release_cons_of_ne {c : Char} (hc : c ≠ halfMark) (text : List Char) :
    release (c :: text) = c :: release text := by
  cases text with
  | nil => rfl
  | cons d text => rw [release, if_neg fun h => hc h.1]

theorem release_hold (text : List Char) : release (hold text) = text := by
  induction text with
  | nil => rfl
  | cons c text ih =>
      by_cases hc : c = halfMark
      · rw [hold_cons, hc, holdChar_halfMark, List.cons_append, List.cons_append, release, if_pos ⟨rfl, rfl⟩]
        exact congrArg (halfMark :: ·) ih
      · rw [hold_cons, holdChar_of_ne hc, List.cons_append, release_cons_of_ne hc]
        exact congrArg (c :: ·) ih

theorem written?_hold (text : List Char) : written? (hold text) = some text := by
  rw [written?, hasHalf_hold, release_hold]
  rfl

theorem hold_injective : Function.Injective hold := by
  intro first second heq
  rw [← release_hold first, heq, release_hold]

theorem held_injective : Function.Injective held := by
  intro first second heq
  exact String.toList_injective (hold_injective (String.ofList_injective heq))

theorem hasHalf_append_left {first : List Char} (hhalf : hasHalf first = true) (second : List Char) :
    hasHalf (first ++ second) = true := by
  fun_induction hasHalf first with
  | case1 c d rest ih =>
      rw [Bool.or_eq_true] at hhalf
      rw [List.cons_append, List.cons_append, hasHalf, Bool.or_eq_true]
      exact hhalf.imp_right ih
  | case2 => cases hhalf

theorem hasHalf_append_right {second : List Char} (first : List Char) (hhalf : hasHalf second = true) :
    hasHalf (first ++ second) = true := by
  induction first with
  | nil => exact hhalf
  | cons c first ih =>
      rw [List.cons_append]
      match hrest : first ++ second with
      | [] => rw [hrest] at ih; cases ih
      | d :: rest =>
          rw [hrest] at ih
          rw [hasHalf, ih, Bool.or_true]

theorem hasHalf_halfChars {unit : Nat} (hunit : isHalf unit = true) : hasHalf (halfChars unit) = true := by
  have hbounds : 0xD800 ≤ unit ∧ unit < 0xE000 := by simpa [isHalf] using hunit
  have hvalid : (0x100000 + (unit - 0xD800)).isValidChar := .inr ⟨by omega, by omega⟩
  have hcode : (Char.ofNat (0x100000 + (unit - 0xD800))).toNat = 0x100000 + (unit - 0xD800) := by
    rw [Char.ofNat, dif_pos hvalid]
    rfl
  rw [halfChars, hasHalf, halfOf?, if_pos ⟨rfl, by omega, by omega⟩]
  rfl

/-! ### Texts that were read -/

/-- A text that is made of held characters and of halves. -/
inductive IsHeld : List Char → Prop
  | nil : IsHeld []
  | char {text : List Char} (c : Char) (htext : IsHeld text) : IsHeld (text ++ holdChar c)
  | half {text : List Char} {unit : Nat} (hunit : isHalf unit = true) (htext : IsHeld text) :
      IsHeld (text ++ halfChars unit)

theorem IsHeld.eq_hold_or_hasHalf {text : List Char} (htext : IsHeld text) :
    (∃ content, text = hold content) ∨ hasHalf text = true := by
  induction htext with
  | nil => exact .inl ⟨[], rfl⟩
  | char c _ ih =>
      rcases ih with ⟨content, rfl⟩ | hhalf
      · refine .inl ⟨content ++ [c], ?_⟩
        rw [hold_append, hold_cons c []]
        simp [hold]
      · exact .inr (hasHalf_append_left hhalf _)
  | half hunit _ _ => exact .inr (hasHalf_append_right _ (hasHalf_halfChars hunit))

/-! ### Order -/

theorem hold_lt_hold {first second : List Char} : hold first < hold second ↔ first < second := by
  induction first generalizing second with
  | nil =>
      cases second with
      | nil => simp [hold]
      | cons c second =>
          rw [hold_cons]
          by_cases hc : c = halfMark
          · simp [hold, hc, holdChar_halfMark]
          · simp [hold, holdChar_of_ne hc]
  | cons c first ih =>
      cases second with
      | nil => simp [hold]
      | cons d second =>
          rw [hold_cons, hold_cons, List.cons_lt_cons_iff]
          by_cases hcd : c = d
          · subst hcd
            by_cases hc : c = halfMark
            · simp [hc, holdChar_halfMark, ih]
            · simp [holdChar_of_ne hc, ih]
          · -- Two characters that differ differ in their held forms at once.
            have hfirst (e : Char) : ∃ tail, holdChar e = e :: tail := by
              by_cases he : e = halfMark
              · exact ⟨_, by rw [he]; exact holdChar_halfMark⟩
              · exact ⟨_, holdChar_of_ne he⟩
            obtain ⟨one, hone⟩ := hfirst c
            obtain ⟨two, htwo⟩ := hfirst d
            rw [hone, htwo, List.cons_append, List.cons_append, List.cons_lt_cons_iff]
            simp [hcd]

theorem held_lt_held {first second : String} : held first < held second ↔ first < second := by
  rw [String.lt_iff_toList_lt, String.lt_iff_toList_lt, held, held, String.toList_ofList, String.toList_ofList,
    hold_lt_hold]

end ProofDump.Text
