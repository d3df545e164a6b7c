import Mathlib.Data.List.Flatten
import ProofDump.Proofs.Text.Search

/-!
# Texts in parts

A text is cut into parts at a mark, and parts are joined with the mark between them. Parts that do not
hold the mark can be told from the joined text, and more parts make a longer text.
-/

namespace ProofDump.Text

variable {α : Type}

theorem intercalate_append (between : List α) {parts others : List (List α)} (hparts : parts ≠ [])
    (hothers : others ≠ []) :
    between.intercalate (parts ++ others) =
      between.intercalate parts ++ between ++ between.intercalate others := by
  obtain ⟨other, others, rfl⟩ := List.exists_cons_of_ne_nil hothers
  induction parts with
  | nil => exact absurd rfl hparts
  | cons part parts ih =>
      cases parts with
      | nil => rw [List.singleton_append, List.intercalate_cons_cons, List.intercalate_singleton]
      | cons next parts =>
          rw [List.cons_append, List.cons_append, List.intercalate_cons_cons,
            List.intercalate_cons_cons, ← List.cons_append, ih (List.cons_ne_nil _ _)]
          simp only [List.append_assoc]

/-- All parts but the last are followed by what stands between them. -/
theorem intercalate_concat (between : List α) (parts : List (List α)) (last : List α) :
    between.intercalate (parts ++ [last]) = parts.flatMap (· ++ between) ++ last := by
  induction parts with
  | nil => simp
  | cons part parts ih =>
      rw [List.cons_append, ← List.singleton_append,
        intercalate_append between (List.cons_ne_nil _ _) (by simp), ih]
      simp

/-- All parts but the first come after what stands between them. -/
theorem intercalate_cons_eq_flatMap (between first : List α) (rest : List (List α)) :
    between.intercalate (first :: rest) = first ++ rest.flatMap (between ++ ·) := by
  induction rest generalizing first with
  | nil => simp
  | cons part rest ih =>
      rw [List.intercalate_cons_cons, ih, List.flatMap_cons]
      simp only [List.append_assoc]

theorem mem_intercalate_iff {mark c : α} (hmark : c ≠ mark) {parts : List (List α)} :
    c ∈ [mark].intercalate parts ↔ ∃ part ∈ parts, c ∈ part := by
  induction parts with
  | nil => simp
  | cons part parts ih =>
      cases parts with
      | nil => simp
      | cons next parts =>
          rw [List.intercalate_cons_cons, List.mem_append, List.mem_append, ih, List.exists_mem_cons_iff]
          simp [hmark]

theorem notMem_of_mem_splitOn [DecidableEq α] {mark : α} {text part : List α}
    (hpart : part ∈ text.splitOn mark) : mark ∉ part := by
  induction text generalizing part with
  | nil =>
      rw [List.splitOn_nil, List.mem_singleton] at hpart
      simp [hpart]
  | cons c text ih =>
      obtain ⟨first, others, hparts⟩ := List.exists_cons_of_ne_nil (List.splitOn_ne_nil mark text)
      have hfirst : mark ∉ first := ih (hparts ▸ List.mem_cons_self)
      rw [List.splitOn] at hparts
      rw [List.splitOn, List.splitOnP_cons_eq_if_modifyHead, hparts] at hpart
      split at hpart
      · rcases List.mem_cons.1 hpart with rfl | hpart
        · exact List.not_mem_nil
        · exact ih (by rw [List.splitOn, hparts]; exact hpart)
      · rename_i hc
        rcases List.mem_cons.1 hpart with rfl | hpart
        · rw [List.mem_cons, not_or]
          exact ⟨fun heq => hc (by simp [heq]), hfirst⟩
        · exact ih (by rw [List.splitOn, hparts]; exact List.mem_cons_of_mem _ hpart)

theorem splitOn_append_cons [DecidableEq α] (mark : α) (front rest : List α) :
    (front ++ mark :: rest).splitOn mark = front.splitOn mark ++ rest.splitOn mark := by
  have hjoined : front ++ mark :: rest = [mark].intercalate (front.splitOn mark ++ rest.splitOn mark) := by
    rw [intercalate_append _ (List.splitOn_ne_nil mark front) (List.splitOn_ne_nil mark rest),
      List.intercalate_splitOn, List.intercalate_splitOn, List.append_assoc, List.singleton_append]
  rw [hjoined, List.splitOn_intercalate mark _ (by simp [List.splitOn_ne_nil])]
  intro part hpart
  exact (List.mem_append.1 hpart).elim notMem_of_mem_splitOn notMem_of_mem_splitOn

/-- The parts of a text are what stands between the ends of the text and its marks. -/
theorem mem_splitOn_iff [DecidableEq α] {mark : α} {text part : List α} :
    part ∈ text.splitOn mark ↔ mark ∉ part ∧ ∃ before after, text = before ++ part ++ after ∧
      (∀ c ∈ before.getLast?, c = mark) ∧ ∀ c ∈ after.head?, c = mark := by
  constructor
  · intro hpart
    refine ⟨notMem_of_mem_splitOn hpart, ?_⟩
    obtain ⟨front, back, hparts⟩ := List.append_of_mem hpart
    have htext : text = [mark].intercalate (front ++ [part] ++ back) := by
      rw [List.append_assoc, List.singleton_append, ← hparts, List.intercalate_splitOn]
    have hfront : [mark].intercalate (front ++ [part]) = front.flatMap (· ++ [mark]) ++ part :=
      intercalate_concat [mark] front part
    have hbefore : ∀ c ∈ (front.flatMap (· ++ [mark])).getLast?, c = mark := by
      intro c hc
      cases hends : front.eq_nil_or_concat with
      | inl hnil =>
          rw [hnil] at hc
          cases hc
      | inr hsome =>
          obtain ⟨others, last, rfl⟩ := hsome
          simpa using hc.symm
    by_cases hback : back = []
    · refine ⟨_, [], ?_, hbefore, fun c hc => by cases hc⟩
      rw [htext, hback, List.append_nil, hfront, List.append_nil]
    · refine ⟨_, mark :: [mark].intercalate back, ?_, hbefore, fun c hc => by cases hc; rfl⟩
      rw [htext, intercalate_append _ (by simp) hback, hfront, List.append_assoc, List.singleton_append]
  · rintro ⟨hpart, before, after, rfl, hbefore, hafter⟩
    have hwhole : part ∈ (part ++ after).splitOn mark := by
      have hself : part.splitOn mark = [part] := by
        have hmarks : ∀ other ∈ [part], mark ∉ other := List.forall_mem_singleton.2 hpart
        simpa using List.splitOn_intercalate mark hmarks (by simp)
      cases after with
      | nil => simp [hself]
      | cons c after =>
          obtain rfl := hafter c rfl
          rw [splitOn_append_cons, hself]
          exact List.mem_append_left _ (List.mem_singleton_self part)
    cases hends : before.eq_nil_or_concat with
    | inl hnil => simpa [hnil] using hwhole
    | inr hsome =>
        obtain ⟨front, last, rfl⟩ := hsome
        obtain rfl := hbefore last (by simp)
        have hcut : front.concat last ++ part ++ after = front ++ last :: (part ++ after) := by simp
        rw [hcut, splitOn_append_cons]
        exact List.mem_append_right _ hwhole

theorem intercalate_inj [DecidableEq α] {mark : α} {parts others : List (List α)}
    (hparts : ∀ part ∈ parts, mark ∉ part) (hothers : ∀ part ∈ others, mark ∉ part)
    (hnil : parts ≠ []) (hothersNil : others ≠ [])
    (heq : [mark].intercalate parts = [mark].intercalate others) : parts = others := by
  rw [← List.splitOn_intercalate mark hparts hnil, heq,
    List.splitOn_intercalate mark hothers hothersNil]

/-- A part with the mark before it at the end of a joined text is one of the parts. -/
theorem mem_of_intercalate_eq [DecidableEq α] {mark : α} {text last : List α}
    {parts : List (List α)} (hparts : ∀ part ∈ parts, mark ∉ part) (hlast : mark ∉ last)
    (heq : [mark].intercalate parts = text ++ mark :: last) : last ∈ parts := by
  have hnil : parts ≠ [] := by
    rintro rfl
    simp at heq
  have hjoined : [mark].intercalate (text.splitOn mark ++ [last]) = text ++ mark :: last := by
    rw [intercalate_append _ (List.splitOn_ne_nil mark text) (by simp), List.intercalate_splitOn]
    simp
  have hcut : ∀ part ∈ text.splitOn mark ++ [last], mark ∉ part := by
    intro part hpart
    rcases List.mem_append.1 hpart with hpart | hpart
    · exact notMem_of_mem_splitOn hpart
    · exact List.mem_singleton.1 hpart ▸ hlast
  rw [intercalate_inj hparts hcut hnil (by simp) (heq.trans hjoined.symm)]
  simp

theorem length_intercalate_of_ne_nil (mark : α) {parts : List (List α)} (hparts : parts ≠ []) :
    ([mark].intercalate parts).length + 1 = (parts.flatMap (· ++ [mark])).length := by
  obtain ⟨parts, last, rfl⟩ := List.eq_nil_or_concat parts |>.resolve_left hparts
  rw [List.concat_eq_append, intercalate_concat]
  simp
  omega

theorem length_intercalate_mark (mark other : α) (parts : List (List α)) :
    ([mark].intercalate parts).length = ([other].intercalate parts).length := by
  induction parts with
  | nil => rfl
  | cons part parts ih =>
      cases parts with
      | nil => rw [List.intercalate_singleton, List.intercalate_singleton]
      | cons next parts => simp only [List.intercalate_cons_cons, List.length_append, List.length_singleton, ih]

theorem eq_of_sublist_of_length_flatMap (mark : α) {parts others : List (List α)}
    (hsublist : parts.Sublist others)
    (hlength : (others.flatMap (· ++ [mark])).length ≤ (parts.flatMap (· ++ [mark])).length) :
    parts = others := by
  induction hsublist with
  | slnil => rfl
  | cons part hrest ih =>
      have hless := (hrest.flatMap (· ++ [mark])).length_le
      simp only [List.flatMap_cons, List.length_append, List.length_singleton] at hlength
      omega
  | cons_cons part hrest ih =>
      simp only [List.flatMap_cons, List.length_append] at hlength
      rw [ih (by omega)]

/-- With some parts left out a joined text is shorter, unless it is the same. -/
theorem intercalate_eq_of_sublist {mark : α} {parts others : List (List α)}
    (hsublist : parts.Sublist others)
    (hlength : ([mark].intercalate others).length ≤ ([mark].intercalate parts).length) :
    [mark].intercalate parts = [mark].intercalate others := by
  by_cases hparts : parts = []
  · rw [hparts, List.intercalate_nil, List.length_nil, Nat.le_zero_eq, List.length_eq_zero_iff]
      at hlength
    rw [hparts, hlength, List.intercalate_nil]
  · have hothers : others ≠ [] := by
      rintro rfl
      exact hparts (List.sublist_nil.1 hsublist)
    have hsame : parts = others := by
      refine eq_of_sublist_of_length_flatMap mark hsublist ?_
      rw [← length_intercalate_of_ne_nil mark hparts, ← length_intercalate_of_ne_nil mark hothers]
      omega
    rw [hsame]

theorem intercalate_sublist (mark : α) {parts others : List (List α)} (hsublist : parts.Sublist others) :
    ([mark].intercalate parts).Sublist ([mark].intercalate others) := by
  induction hsublist with
  | slnil => exact List.Sublist.refl _
  | @cons parts others part hrest ih =>
      by_cases hothers : others = []
      · subst hothers
        rw [List.sublist_nil.1 hrest]
        exact List.nil_sublist _
      · rw [List.intercalate_cons_of_ne_nil hothers]
        exact ih.trans (List.sublist_append_right _ _)
  | @cons_cons parts others part hrest ih =>
      by_cases hparts : parts = []
      · rw [hparts, List.intercalate_singleton]
        cases others with
        | nil =>
            rw [List.intercalate_singleton]
        | cons other others =>
            rw [List.intercalate_cons_cons, List.append_assoc]
            exact List.sublist_append_left _ _
      · have hothers : others ≠ [] := fun hnil => hparts (List.sublist_nil.1 (hnil ▸ hrest))
        rw [List.intercalate_cons_of_ne_nil hparts, List.intercalate_cons_of_ne_nil hothers]
        exact (List.Sublist.refl _).append ih

theorem splitFrom_singleton (mark : Char) (piece text : List Char) :
    splitFrom [mark] piece 0 text = (text.splitOn mark).modifyHead (piece.reverse ++ ·) := by
  induction text generalizing piece with
  | nil => simp [splitFrom]
  | cons c text ih =>
      obtain ⟨first, others, hparts⟩ := List.exists_cons_of_ne_nil (List.splitOn_ne_nil mark text)
      have hstarts : startsWith [mark] (c :: text) = true ↔ c = mark := by
        rw [startsWith_iff, List.cons_prefix_cons]
        simp [eq_comm]
      rw [List.splitOn] at hparts
      rw [splitFrom, List.splitOn, List.splitOnP_cons_eq_if_modifyHead, hparts]
      by_cases hc : c = mark
      · rw [if_pos (hstarts.2 hc), if_pos (by simp [hc]), List.length_singleton, Nat.sub_self, ih,
          List.splitOn, hparts]
        simp
      · rw [if_neg (hstarts.not.2 hc), if_neg (by simp [hc]), ih, List.splitOn, hparts]
        simp

theorem split_singleton (mark : Char) (text : List Char) : split [mark] text = text.splitOn mark := by
  obtain ⟨first, others, hparts⟩ := List.exists_cons_of_ne_nil (List.splitOn_ne_nil mark text)
  rw [split, splitFrom_singleton, hparts]
  rfl

theorem splitAt_eq_splitOn (mark : Char) (text : String) :
    splitAt mark text = (text.toList.splitOn mark).map String.ofList := by
  rw [splitAt, split_singleton]

/-! ### Marks between texts -/

section

variable {mark : Char}

theorem map_toList_splitAt (mark : Char) (text : String) :
    (splitAt mark text).map String.toList = text.toList.splitOn mark := by
  rw [splitAt_eq_splitOn, List.map_map]
  simp

theorem splitAt_ne_nil (mark : Char) (text : String) : splitAt mark text ≠ [] := by
  rw [splitAt_eq_splitOn]
  simp [List.splitOn_ne_nil]

theorem notMem_of_mem_splitAt {text part : String} (hpart : part ∈ splitAt mark text) : mark ∉ part.toList := by
  rw [splitAt_eq_splitOn, List.mem_map] at hpart
  obtain ⟨piece, hpiece, rfl⟩ := hpart
  rw [String.toList_ofList]
  exact notMem_of_mem_splitOn hpiece

variable {separator : String} (hmark : separator.toList = [mark])

include hmark

theorem splitAt_append (front rest : String) :
    splitAt mark (front ++ separator ++ rest) = splitAt mark front ++ splitAt mark rest := by
  have hchars : (front ++ separator ++ rest).toList = front.toList ++ mark :: rest.toList := by
    simp [String.toList_append, hmark]
  simp only [splitAt_eq_splitOn, hchars, splitOn_append_cons, List.map_append]

theorem splitAt_intercalate {parts : List String} (hnil : parts ≠ [])
    (hparts : ∀ part ∈ parts, mark ∉ part.toList) : splitAt mark (separator.intercalate parts) = parts := by
  have hpieces : ∀ piece ∈ parts.map String.toList, mark ∉ piece := by
    intro piece hpiece
    obtain ⟨part, hpart, rfl⟩ := List.mem_map.1 hpiece
    exact hparts part hpart
  rw [splitAt_eq_splitOn, String.toList_intercalate, hmark,
    List.splitOn_intercalate mark hpieces (by simpa using hnil), List.map_map]
  simp

theorem intercalate_splitAt (text : String) : separator.intercalate (splitAt mark text) = text := by
  rw [← String.toList_inj, String.toList_intercalate, hmark, map_toList_splitAt, List.intercalate_splitOn]

end

theorem intercalate_append_texts (separator : String) {parts others : List String} (hparts : parts ≠ [])
    (hothers : others ≠ []) :
    separator.intercalate (parts ++ others) =
      separator.intercalate parts ++ separator ++ separator.intercalate others := by
  rw [← String.toList_inj]
  simp only [String.toList_append, String.toList_intercalate, List.map_append]
  exact intercalate_append _ (by simpa using hparts) (by simpa using hothers)

end ProofDump.Text
