import Mathlib.Data.List.TakeWhile
import ProofDump.Text.Blank

/-!
# Blanks at the ends and between words

What is left of a text when the blanks at its ends are dropped, and what its first word is. A text that
does not start with a blank starts with its first word, and this word ends where the text ends or a blank
follows (`head?_words_eq_some_iff`). Dropping characters before the blanks changes what is left exactly if
one of them is no blank (`stripLeft_drop_eq_iff`).
-/

namespace ProofDump.Text

/-! ### Ends -/

theorem stripLeft_of_letter {text : List Char} (htext : ∀ c ∈ text.head?, isBlank c = false) :
    stripLeft text = text := by
  cases text with
  | nil => rfl
  | cons c text =>
      have hc := htext c rfl
      exact List.dropWhile_cons_of_neg (by rw [hc]; exact Bool.false_ne_true)

theorem stripLeft_append_of_blanks {blanks : List Char} (hblanks : ∀ c ∈ blanks, isBlank c = true)
    (text : List Char) : stripLeft (blanks ++ text) = stripLeft text :=
  List.dropWhile_append_of_pos hblanks

theorem length_stripLeft_le (text : List Char) : (stripLeft text).length ≤ text.length :=
  (List.dropWhile_sublist isBlank).length_le

/-- Dropping blanks and dropping what comes before them is the same if there are only blanks there. -/
theorem stripLeft_drop_eq_iff (count : Nat) (text : List Char) :
    stripLeft (text.drop count) = stripLeft text ↔ ∀ c ∈ text.take count, isBlank c = true := by
  induction text generalizing count with
  | nil => simp
  | cons c text ih =>
      cases count with
      | zero => simp
      | succ count =>
          rw [List.drop_succ_cons, List.take_succ_cons, List.forall_mem_cons]
          cases hc : isBlank c with
          | true =>
              have hfirst : stripLeft (c :: text) = stripLeft text := List.dropWhile_cons_of_pos hc
              rw [hfirst, ih count, and_iff_right rfl]
          | false =>
              -- The first character stays, so that the other side is too short.
              have hfirst : stripLeft (c :: text) = c :: text :=
                stripLeft_of_letter fun d hd => by cases hd; exact hc
              have hshort := length_stripLeft_le (text.drop count)
              rw [List.length_drop] at hshort
              rw [hfirst]
              constructor
              · intro heq
                rw [heq, List.length_cons] at hshort
                omega
              · intro hblank
                cases hblank.1

theorem stripLeft_drop_ne {c : Char} (hc : isBlank c = false) (count : Nat) (text : List Char) :
    stripLeft ((c :: text).drop (count + 1)) ≠ stripLeft (c :: text) := by
  rw [ne_eq, stripLeft_drop_eq_iff, List.take_succ_cons, List.forall_mem_cons, hc]
  rintro ⟨hblank, -⟩
  cases hblank

theorem stripRight_append {text : List Char} {c : Char} (hmem : c ∈ text) (hc : isBlank c = false)
    (before : List Char) : stripRight (before ++ text) = before ++ stripRight text := by
  have hkept : (text.reverse.dropWhile isBlank).isEmpty = false := by
    rw [Bool.eq_false_iff, ne_eq, List.isEmpty_iff, List.dropWhile_eq_nil_iff]
    intro hblank
    rw [hblank c (List.mem_reverse.2 hmem)] at hc
    cases hc
  rw [stripRight, stripRight, List.reverse_append, List.dropWhile_append, hkept,
    if_neg Bool.false_ne_true, List.reverse_append, List.reverse_reverse]

theorem exists_blanks_after (text : List Char) :
    ∃ blanks, text = stripRight text ++ blanks ∧ ∀ c ∈ blanks, isBlank c = true := by
  refine ⟨(text.reverse.takeWhile isBlank).reverse, ?_, fun c hc => ?_⟩
  · rw [stripRight, ← List.reverse_append, List.takeWhile_append_dropWhile, List.reverse_reverse]
  · exact List.mem_takeWhile_imp (List.mem_reverse.1 hc)

theorem stripRight_cons {c : Char} (hc : isBlank c = false) (text : List Char) :
    stripRight (c :: text) = c :: stripRight text := by
  rw [stripRight, stripRight, List.reverse_cons, List.dropWhile_append]
  split
  · rename_i hblank
    rw [List.isEmpty_iff.1 hblank, List.dropWhile_cons_of_neg (by rw [hc]; exact Bool.false_ne_true)]
    rfl
  · rw [List.reverse_append]
    rfl

/-- The ends can be trimmed in either order. -/
theorem stripLeft_stripRight (text : List Char) : stripLeft (stripRight text) = strip text := by
  induction text with
  | nil => rfl
  | cons c text ih =>
      cases hc : isBlank c with
      | false =>
          have hfirst (rest : List Char) : stripLeft (c :: rest) = c :: rest :=
            stripLeft_of_letter fun d hd => by cases hd; exact hc
          rw [strip, hfirst, stripRight_cons hc, hfirst]
      | true =>
          have hfirst (rest : List Char) : stripLeft (c :: rest) = stripLeft rest :=
            List.dropWhile_cons_of_pos hc
          rw [strip, hfirst, ← strip, ← ih, stripRight, List.reverse_cons, List.dropWhile_append]
          split
          · rename_i hblank
            rw [List.dropWhile_cons_of_pos hc, stripRight, List.isEmpty_iff.1 hblank]
            rfl
          · rw [List.reverse_append]
            exact hfirst _

theorem isBlank_of_mem_head?_strip {text : List Char} {c : Char} (hc : c ∈ (strip text).head?) :
    isBlank c = false := by
  have hfirst := List.head?_dropWhile_not isBlank (stripRight text)
  rw [← stripLeft_stripRight, stripLeft] at hc
  rw [hc] at hfirst
  exact hfirst

theorem isBlank_of_mem_getLast?_strip {text : List Char} {c : Char} (hc : c ∈ (strip text).getLast?) :
    isBlank c = false := by
  have hlast := List.head?_dropWhile_not isBlank (stripLeft text).reverse
  rw [strip, stripRight, List.getLast?_reverse] at hc
  rw [hc] at hlast
  exact hlast

theorem strip_strip (text : List Char) : strip (strip text) = strip text := by
  have hleft : stripLeft (strip text) = strip text := stripLeft_of_letter fun c => isBlank_of_mem_head?_strip
  have hright : (strip text).reverse.dropWhile isBlank = (strip text).reverse :=
    stripLeft_of_letter fun c hc => isBlank_of_mem_getLast?_strip (List.head?_reverse ▸ hc)
  rw [strip, hleft, stripRight, hright, List.reverse_reverse]

/-- A text is what is left of it, between blanks. -/
theorem exists_blanks_around (text : List Char) :
    ∃ before after, text = before ++ strip text ++ after ∧ (∀ c ∈ before, isBlank c = true) ∧
      ∀ c ∈ after, isBlank c = true := by
  obtain ⟨after, hafter, hblanks⟩ := exists_blanks_after (stripLeft text)
  refine ⟨text.takeWhile isBlank, after, ?_, fun c hc => List.mem_takeWhile_imp hc, hblanks⟩
  rw [strip, List.append_assoc, ← hafter, stripLeft, List.takeWhile_append_dropWhile]

theorem strip_sublist (text : List Char) : (strip text).Sublist text := by
  obtain ⟨before, after, htext, -⟩ := exists_blanks_around text
  have hwithin : (strip text).Sublist (before ++ strip text ++ after) :=
    (List.sublist_append_right before _).trans (List.sublist_append_left _ after)
  rwa [← htext] at hwithin

theorem strip_append_blanks {before text after : List Char} (hbefore : ∀ c ∈ before, isBlank c = true)
    (hafter : ∀ c ∈ after, isBlank c = true) : strip (before ++ text ++ after) = strip text := by
  have hright : stripRight (text ++ after) = stripRight text := by
    rw [stripRight, List.reverse_append, List.dropWhile_append_of_pos, stripRight]
    exact fun c hc => hafter c (List.mem_reverse.1 hc)
  rw [strip, List.append_assoc, stripLeft_append_of_blanks hbefore, ← strip, ← stripLeft_stripRight, hright,
    stripLeft_stripRight]

/-! ### Words -/

theorem words_cons_blank {c : Char} (hc : isBlank c = true) (text : List Char) :
    words (c :: text) = words text := by
  rw [words, wordsFrom, if_pos hc]
  rfl

theorem wordsFrom_of_ne_nil {word : List Char} (hword : word ≠ []) (text : List Char) :
    wordsFrom word text =
      (word.reverse ++ text.takeWhile (!isBlank ·)) :: words (text.dropWhile (!isBlank ·)) := by
  induction text generalizing word with
  | nil => simp [wordsFrom, words, hword]
  | cons c text ih =>
      rw [wordsFrom]
      cases hc : isBlank c with
      | true =>
          rw [if_pos rfl, if_neg (by simpa using hword), List.takeWhile_cons_of_neg (by simp [hc]),
            List.dropWhile_cons_of_neg (by simp [hc]), words_cons_blank hc, List.append_nil]
          rfl
      | false =>
          rw [if_neg Bool.false_ne_true, ih (List.cons_ne_nil c word),
            List.takeWhile_cons_of_pos (by simp [hc]), List.dropWhile_cons_of_pos (by simp [hc])]
          simp

theorem words_cons_letter {c : Char} (hc : isBlank c = false) (text : List Char) :
    words (c :: text) =
      (c :: text.takeWhile (!isBlank ·)) :: words (text.dropWhile (!isBlank ·)) := by
  rw [words, wordsFrom, hc, if_neg Bool.false_ne_true, wordsFrom_of_ne_nil (List.cons_ne_nil c [])]
  rfl

theorem wordsFrom_blanks {blanks : List Char} (hblanks : ∀ c ∈ blanks, isBlank c = true)
    (word : List Char) : wordsFrom word blanks = if word.isEmpty then [] else [word.reverse] := by
  induction blanks generalizing word with
  | nil => rfl
  | cons c blanks ih =>
      obtain ⟨hc, hblanks⟩ := List.forall_mem_cons.1 hblanks
      rw [wordsFrom, if_pos hc, ih hblanks]
      rfl

theorem wordsFrom_append_blanks {blanks : List Char} (hblanks : ∀ c ∈ blanks, isBlank c = true)
    (word text : List Char) : wordsFrom word (text ++ blanks) = wordsFrom word text := by
  induction text generalizing word with
  | nil => exact wordsFrom_blanks hblanks word
  | cons c text ih => rw [List.cons_append, wordsFrom, wordsFrom, ih, ih]

theorem words_stripRight (text : List Char) : words (stripRight text) = words text := by
  obtain ⟨blanks, htext, hblanks⟩ := exists_blanks_after text
  calc words (stripRight text)
      = words (stripRight text ++ blanks) := (wordsFrom_append_blanks hblanks [] _).symm
    _ = words text := by rw [← htext]

/-- A text that does not start with a blank starts with its first word. -/
theorem head?_words_eq_some_iff {text word : List Char} (htext : ∀ c ∈ text.head?, isBlank c = false) :
    (words text).head? = some word ↔ word ≠ [] ∧ (∀ c ∈ word, isBlank c = false) ∧
      ∃ rest, text = word ++ rest ∧ ∀ c ∈ rest.head?, isBlank c = true := by
  cases text with
  | nil =>
      constructor
      · intro hhead
        cases hhead
      · rintro ⟨hword, -, rest, hrest, -⟩
        exact absurd (List.append_eq_nil_iff.1 hrest.symm).1 hword
  | cons c text =>
      have hc := htext c rfl
      rw [words_cons_letter hc, List.head?_cons, Option.some.injEq]
      constructor
      · rintro rfl
        refine ⟨List.cons_ne_nil _ _, List.forall_mem_cons.2 ⟨hc, fun d hd => ?_⟩,
          text.dropWhile (!isBlank ·), ?_, fun d hd => ?_⟩
        · simpa using List.mem_takeWhile_imp hd
        · rw [List.cons_append, List.takeWhile_append_dropWhile]
        · have hstop := List.head?_dropWhile_not (!isBlank ·) text
          rw [hd] at hstop
          simpa using hstop
      · rintro ⟨hword, hletters, rest, hrest, hblank⟩
        obtain ⟨d, word, rfl⟩ := List.exists_cons_of_ne_nil hword
        rw [List.cons_append, List.cons.injEq] at hrest
        obtain ⟨rfl, rfl⟩ := hrest
        have hword : ∀ d ∈ word, (!isBlank d) = true := fun d hd => by
          rw [hletters d (List.mem_cons_of_mem _ hd)]
          rfl
        rw [List.takeWhile_append_of_pos hword]
        cases rest with
        | nil => simp
        | cons e rest => simp [hblank e rfl]

end ProofDump.Text
