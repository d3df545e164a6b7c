import Mathlib.Data.List.TakeWhile
import ProofDump.Text.Blank
import ProofDump.Text.Lines

/-!
# Lines put one after the other

A text that is made of lines, each ended by a line feed and without another one, is cut into exactly these
lines, and it reads back from a file as it is unless there is a carriage return in it. The lines of any text
make up the text. A line is blank only if all its characters are.
-/

namespace ProofDump.Text

theorem linesFrom_append {part : List Char} (hpart : '\n' ∉ part) (line rest : List Char) :
    linesFrom line (part ++ '\n' :: rest) = (line.reverse ++ part ++ ['\n']) :: linesFrom [] rest := by
  induction part generalizing line with
  | nil => simp [linesFrom]
  | cons c part ih =>
      rw [List.mem_cons, not_or] at hpart
      rw [List.cons_append, linesFrom.eq_3 _ _ _ (Ne.symm hpart.1), ih hpart.2]
      simp

theorem lines_flatMap {parts : List (List Char)} (hparts : ∀ part ∈ parts, '\n' ∉ part) :
    lines (parts.flatMap (· ++ ['\n'])) = parts.map (· ++ ['\n']) := by
  induction parts with
  | nil => rfl
  | cons part parts ih =>
      rw [List.forall_mem_cons] at hparts
      have hrest : linesFrom [] (parts.flatMap (· ++ ['\n'])) = parts.map (· ++ ['\n']) := ih hparts.2
      rw [lines, List.flatMap_cons, List.append_assoc, List.singleton_append,
        linesFrom_append hparts.1, hrest]
      rfl

theorem flatten_linesFrom (line text : List Char) :
    (linesFrom line text).flatten = line.reverse ++ text := by
  fun_induction linesFrom line text with
  | case1 line hline => simp [List.isEmpty_iff.1 hline]
  | case2 line hline => simp
  | case3 line rest ih => simp [ih]
  | case4 line c rest hc ih => simp [ih]

theorem flatten_lines (text : List Char) : (lines text).flatten = text := flatten_linesFrom [] text

theorem unifyLineEnds_of_notMem {text : List Char} (htext : '\r' ∉ text) : unifyLineEnds text = text := by
  induction text with
  | nil => rfl
  | cons c text ih =>
      rw [List.mem_cons, not_or] at htext
      rw [unifyLineEnds.eq_4 _ _ (fun _ heq _ => htext.1 heq.symm) (Ne.symm htext.1), ih htext.2]

theorem strip_isEmpty_of_mem {text : List Char} {c : Char} (hmem : c ∈ text) (hc : isBlank c = false) :
    (strip text).isEmpty = false := by
  have hleft : c ∈ stripLeft text := by
    have hparts : text.takeWhile isBlank ++ text.dropWhile isBlank = text :=
      List.takeWhile_append_dropWhile
    rw [← hparts, List.mem_append] at hmem
    rcases hmem with hmem | hmem
    · rw [List.mem_takeWhile_imp hmem] at hc
      cases hc
    · exact hmem
  rw [Bool.eq_false_iff, strip, stripRight, ne_eq, List.isEmpty_iff, List.reverse_eq_nil_iff,
    List.dropWhile_eq_nil_iff]
  intro hblank
  rw [hblank c (List.mem_reverse.2 hleft)] at hc
  cases hc

end ProofDump.Text
