import ProofDump.Path
import ProofDump.Proofs.Text.Parts

/-!
# Paths and their texts

The text of a path is its slashes and its names with slashes between them, and only the path without names is
written otherwise. What a text spells is proper: its names are not empty, hold no slash and are no single dot.
Such paths stay proper when one is put below another.
-/

namespace ProofDump.Path

/-- The name says something and can be told from the names around it. -/
def IsPart (part : String) : Prop := part ≠ "" ∧ part ≠ "." ∧ '/' ∉ part.toList

instance : DecidablePred IsPart := fun part =>
  inferInstanceAs (Decidable (part ≠ "" ∧ part ≠ "." ∧ '/' ∉ part.toList))

structure IsProper (path : Path) : Prop where
  slashes : path.slashes ≤ 2
  parts : ∀ part ∈ path.parts, IsPart part

/-- The path leads to the root itself; its text ends with a slash, and no other text of a path does. -/
def IsRoot (path : Path) : Prop := path.slashes ≠ 0 ∧ path.parts = []

instance : DecidablePred IsRoot := fun path => inferInstanceAs (Decidable (path.slashes ≠ 0 ∧ path.parts = []))

theorem ofText_isProper (text : String) : (ofText text).IsProper where
  slashes := by
    show leadingSlashes _ ≤ 2
    rw [leadingSlashes]
    split <;> omega
  parts := by
    intro part hpart
    show _ ∧ _ ∧ _
    rw [ofText, partsOf, List.mem_filter, Text.splitAt_eq_splitOn, List.mem_map, decide_eq_true_eq] at hpart
    obtain ⟨⟨chars, hchars, rfl⟩, hne, hdot⟩ := hpart
    refine ⟨hne, hdot, ?_⟩
    rw [String.toList_ofList]
    exact Text.notMem_of_mem_splitOn hchars

theorem IsProper.join_relative {path : Path} (hproper : path.IsProper) {names : List String}
    (hnames : ∀ name ∈ names, IsPart name) : (path.join (relative names)).IsProper where
  slashes := hproper.slashes
  parts := List.forall_mem_append.2 ⟨hproper.parts, hnames⟩

theorem join_relative_eq (path : Path) (names : List String) :
    path.join (relative names) = ⟨path.slashes, path.parts ++ names⟩ := rfl

theorem join_relative_inj {path : Path} {names others : List String} :
    path.join (relative names) = path.join (relative others) ↔ names = others := by
  rw [join_relative_eq, join_relative_eq, mk.injEq, List.append_cancel_left_eq]
  exact and_iff_right rfl

theorem join_relative_nil (path : Path) : path.join (relative []) = path := by
  rw [join_relative_eq, List.append_nil]

theorem join_relative_append (path : Path) (names others : List String) :
    path.join (relative (names ++ others)) = (path.join (relative names)).join (relative others) := by
  rw [join_relative_eq, join_relative_eq, join_relative_eq, List.append_assoc]

theorem partsOf_part {part : String} (hpart : IsPart part) : partsOf part = [part] := by
  have hsplit : (['/'].intercalate [part.toList]).splitOn '/' = [part.toList] :=
    List.splitOn_intercalate '/' (List.forall_mem_singleton.2 hpart.2.2) (List.cons_ne_nil _ _)
  rw [List.intercalate_singleton] at hsplit
  rw [partsOf, Text.splitAt_eq_splitOn, hsplit, List.map_singleton, String.ofList_toList]
  exact List.filter_eq_self.2 (List.forall_mem_singleton.2 (decide_eq_true ⟨hpart.1, hpart.2.1⟩))

theorem ofText_of_head? {text : String} (hhead : text.toList.head? ≠ some '/') :
    ofText text = relative (partsOf text) := by
  have hslashes : text.toList.takeWhile (· = '/') = [] := by
    cases hchars : text.toList with
    | nil => rfl
    | cons c rest =>
        rw [hchars, List.head?_cons, ne_eq, Option.some.injEq] at hhead
        rw [List.takeWhile_cons_of_neg (by simpa using hhead)]
  rw [ofText, hslashes]
  rfl

/-- The path that a name spells is that name alone. -/
theorem ofText_part {part : String} (hpart : IsPart part) : ofText part = relative [part] := by
  rw [ofText_of_head? fun hhead => hpart.2.2 (List.mem_of_head? hhead), partsOf_part hpart]

theorem isPart_ofList {chars : List Char} (hslash : '/' ∉ chars) (hlong : 1 < chars.length) :
    IsPart (String.ofList chars) := by
  have hne (name : String) (hname : name.toList.length ≤ 1) : String.ofList chars ≠ name := by
    rintro rfl
    rw [String.toList_ofList] at hname
    omega
  exact ⟨hne "" (by decide), hne "." (by decide), by rwa [String.toList_ofList]⟩

theorem partsOf_append (front rest : String) : partsOf (front ++ "/" ++ rest) = partsOf front ++ partsOf rest := by
  rw [partsOf, Text.splitAt_append rfl, List.filter_append]
  rfl

/-- The first name in a text goes up to the first slash, if it does not start there. -/
theorem head?_partsOf {front : List Char} (hslash : '/' ∉ front) (hlong : 1 < front.length)
    (tail : List Char) :
    (partsOf (String.ofList (front ++ tail))).head? =
      some (String.ofList (front ++ tail.takeWhile (· ≠ '/'))) := by
  have hfirst : '/' ∉ front ++ tail.takeWhile (· ≠ '/') := by
    rw [List.mem_append, not_or]
    refine ⟨hslash, fun hmem => ?_⟩
    have hne := List.all_eq_true.1 List.all_takeWhile '/' hmem
    simp at hne
  have hfirstLong : 1 < (front ++ tail.takeWhile (· ≠ '/')).length := by
    rw [List.length_append]
    omega
  have htail := List.takeWhile_append_dropWhile (p := (· ≠ '/')) (l := tail)
  cases hrest : tail.dropWhile (· ≠ '/') with
  | nil =>
      rw [hrest, List.append_nil] at htail
      rw [htail] at hfirst hfirstLong ⊢
      rw [partsOf_part (isPart_ofList hfirst hfirstLong)]
      rfl
  | cons c rest =>
      have hc : c = '/' := by
        have hhead := List.head?_dropWhile_not (· ≠ '/') tail
        rw [hrest] at hhead
        simpa using hhead
      rw [hrest, hc] at htail
      have htext : String.ofList (front ++ tail) =
          String.ofList (front ++ tail.takeWhile (· ≠ '/')) ++ "/" ++ String.ofList rest := by
        nth_rewrite 1 [← htail]
        rw [← List.append_assoc, List.append_cons, String.ofList_append, String.ofList_append]
      rw [htext, partsOf_append, partsOf_part (isPart_ofList hfirst hfirstLong)]
      rfl

/-! ### Texts of paths -/

theorem toList_text {path : Path} (hnamed : path.slashes ≠ 0 ∨ path.parts ≠ []) :
    path.text.toList =
      List.replicate path.slashes '/' ++ ['/'].intercalate (path.parts.map String.toList) := by
  have hjoined : ("/".intercalate path.parts).toList = ['/'].intercalate (path.parts.map String.toList) :=
    String.toList_intercalate
  rw [text]
  split
  · rw [String.toList_append, String.toList_ofList, hjoined]
  · rename_i hrelative
    have hzero : path.slashes = 0 := by simpa [absolute] using hrelative
    have hparts : path.parts ≠ [] := hnamed.resolve_left (not_not.2 hzero)
    rw [if_neg (by simpa using hparts), hjoined, hzero]
    rfl

/-- The slashes of a path count as empty names before its names. -/
theorem toList_text_of_parts {path : Path} (hparts : path.parts ≠ []) :
    path.text.toList =
      ['/'].intercalate (List.replicate path.slashes [] ++ path.parts.map String.toList) := by
  rw [toList_text (.inr hparts)]
  induction path.slashes with
  | zero => rfl
  | succ count ih =>
      rw [List.replicate_succ, List.replicate_succ, List.cons_append, ih, List.cons_append,
        List.intercalate_cons_of_ne_nil (by simp [hparts])]
      rfl

theorem text_of_unnamed {path : Path} (hunnamed : ¬ (path.slashes ≠ 0 ∨ path.parts ≠ [])) :
    path.text = "." := by
  simp only [not_or, not_not] at hunnamed
  rw [text, if_neg (by simp [absolute, hunnamed.1]), if_pos (by simp [hunnamed.2])]

theorem text_relative {names : List String} (hnil : names ≠ []) :
    (relative names).text = "/".intercalate names := by
  rw [text, if_neg (show ¬ (relative names).absolute = true from Bool.false_ne_true),
    if_neg (by simpa [relative] using hnil)]
  rfl

theorem mem_text_iff {path : Path} {c : Char} (hslash : c ≠ '/') (hdot : c ≠ '.') :
    c ∈ path.text.toList ↔ ∃ part ∈ path.parts, c ∈ part.toList := by
  by_cases hnamed : path.slashes ≠ 0 ∨ path.parts ≠ []
  · rw [toList_text hnamed, List.mem_append, Text.mem_intercalate_iff hslash]
    simp only [List.mem_map, exists_exists_and_eq_and]
    refine or_iff_right ?_
    intro hmem
    exact hslash (List.eq_of_mem_replicate hmem)
  · have hparts : path.parts = [] := not_not.1 fun hparts => hnamed (.inr hparts)
    rw [text_of_unnamed hnamed, hparts]
    simp [hdot]

theorem IsProper.text_ne_empty {path : Path} (hproper : path.IsProper) : path.text ≠ "" := by
  by_cases hnamed : path.slashes ≠ 0 ∨ path.parts ≠ []
  · intro hempty
    have hchars := toList_text hnamed
    rw [hempty, String.toList_empty, eq_comm, List.append_eq_nil_iff, List.replicate_eq_nil_iff] at hchars
    cases hparts : path.parts with
    | nil => exact hnamed.elim (absurd hchars.1) (absurd hparts)
    | cons part rest =>
        have hpart := (hproper.parts part (hparts ▸ List.mem_cons_self)).1
        rw [hparts, List.map_cons] at hchars
        cases rest with
        | nil => exact hpart (String.toList_eq_nil_iff.1 (by simpa using hchars.2))
        | cons next rest =>
            rw [List.map_cons, List.intercalate_cons_cons] at hchars
            simp at hchars
  · rw [text_of_unnamed hnamed]
    decide

end ProofDump.Path
