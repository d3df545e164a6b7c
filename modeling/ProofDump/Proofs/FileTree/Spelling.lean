import Mathlib
import ProofDump.Proofs.FileTree.Follow

/-!
# Spellings of a path

Many texts spell one path: empty names and single dots in them say nothing. A text that leads somewhere leads
to the same place as the text of its path, which is not longer (`locate_ofText`). The converse fails, since the
text itself can be too long or go through what is no directory. Names that are written below a text lead on
from where the text leads.
-/

namespace ProofDump.FileTree

/-! ### Parts of a text -/

theorem mem_of_mem_splitAt {mark c : Char} {text part : String} (hpart : part ∈ Text.splitAt mark text)
    (hc : c ∈ part.toList) : c ∈ text.toList := by
  rw [Text.splitAt_eq_splitOn, List.mem_map] at hpart
  obtain ⟨piece, hpiece, rfl⟩ := hpart
  rw [String.toList_ofList] at hc
  have hmark : c ≠ mark := by
    rintro rfl
    exact Text.notMem_of_mem_splitOn hpiece hc
  have hjoined := (Text.mem_intercalate_iff hmark).2 ⟨piece, hpiece, hc⟩
  rwa [List.intercalate_splitOn] at hjoined

theorem notMem_intercalate {c : Char} (hslash : c ≠ '/') {parts : List String}
    (hparts : ∀ part ∈ parts, c ∉ part.toList) : c ∉ ("/".intercalate parts).toList := by
  have hjoined : ("/".intercalate parts).toList = ['/'].intercalate (parts.map String.toList) :=
    String.toList_intercalate
  rw [hjoined, Text.mem_intercalate_iff hslash]
  rintro ⟨chars, hchars, hmem⟩
  obtain ⟨part, hpart, rfl⟩ := List.mem_map.1 hchars
  exact hparts part hpart hmem

theorem filter_waypoints (text : String) : (waypoints text).filter (· ≠ ".") = Path.partsOf text := by
  have hparts : ((Text.splitAt '/' text).filter (· ≠ "")).filter (· ≠ ".") = Path.partsOf text := by
    rw [List.filter_filter, Path.partsOf]
    apply List.filter_congr
    intro part _
    simp [Bool.and_comm]
  rw [waypoints]
  split
  · rw [List.filter_append, hparts]
    simp
  · exact hparts

theorem waypoints_ne_nil {text : String} (hempty : text ≠ "") : waypoints text ≠ [] := by
  obtain ⟨front, c, hchars⟩ := (List.eq_nil_or_concat text.toList).resolve_left (String.toList_eq_nil_iff.not.2 hempty)
  rw [waypoints]
  split
  · simp
  · rename_i hlast
    rw [hchars, List.concat_eq_append, List.getLast?_concat, Option.some.injEq] at hlast
    have hmem : c ∈ ['/'].intercalate (text.toList.splitOn '/') := by
      rw [List.intercalate_splitOn, hchars]
      simp
    obtain ⟨piece, hpiece, hc⟩ := (Text.mem_intercalate_iff hlast).1 hmem
    apply List.ne_nil_of_mem
    rw [List.mem_filter, Text.splitAt_eq_splitOn]
    refine ⟨List.mem_map_of_mem hpiece, decide_eq_true ?_⟩
    rintro hpiece
    rw [String.ofList_eq_empty_iff.1 hpiece] at hc
    cases hc

/-! ### Leaving out dots -/

theorem follow_filter {tree : FileTree} {reached way there : List String}
    (hway : tree.follow reached way = .ok there) : tree.follow reached (way.filter (· ≠ ".")) = .ok there := by
  induction way generalizing reached with
  | nil => exact hway
  | cons part way ih =>
      obtain ⟨hdirectory, next, hleads, hnext⟩ := follow_cons_eq_ok_iff.1 hway
      by_cases hpart : part = "."
      · have hhere : next = reached := by
          cases hleads with
          | here _ => rfl
          | above habove => rw [hpart] at habove; exact absurd habove (by decide)
          | name hhere _ _ => exact absurd hpart hhere
        rw [List.filter_cons_of_neg (by simpa using hpart), ← hhere]
        exact ih hnext
      · rw [List.filter_cons_of_pos (by simpa using hpart), follow_of_leads hdirectory hleads]
        exact ih hnext

theorem follow_stops_ofText {tree : FileTree} {reached there : List String} {text : String} (hempty : text ≠ "")
    (hway : tree.follow reached (waypoints text) = .ok there) :
    tree.follow reached (stops (Path.ofText text)) = .ok there := by
  have hparts : tree.follow reached (Path.ofText text).parts = .ok there := by
    have hfilter := follow_filter hway
    rwa [filter_waypoints] at hfilter
  by_cases hnil : (Path.ofText text).parts = []
  · obtain ⟨part, way, hcons⟩ := List.exists_cons_of_ne_nil (waypoints_ne_nil hempty)
    have hdirectory := (follow_cons_eq_ok_iff.1 (hcons ▸ hway)).1
    rw [hnil] at hparts
    rw [stops, if_pos hnil, follow_of_leads hdirectory (.here rfl)]
    exact hparts
  · rw [stops, if_neg hnil]
    exact hparts

/-! ### The length of a text -/

theorem replicate_append_filter_sublist (chars : List Char) :
    (List.replicate (chars.takeWhile (· = '/')).length [] ++
      (chars.splitOn '/').filter (fun piece => piece ≠ [] ∧ piece ≠ ['.'])).Sublist (chars.splitOn '/') := by
  induction chars with
  | nil => simp
  | cons c chars ih =>
      by_cases hc : c = '/'
      · have hsplit : (c :: chars).splitOn '/' = [] :: chars.splitOn '/' := by
          rw [hc]
          exact Text.splitOn_append_cons '/' [] chars
        rw [hsplit, List.takeWhile_cons_of_pos (by simpa using hc), List.length_cons, List.replicate_succ,
          List.filter_cons_of_neg (by simp), List.cons_append]
        exact ih.cons_cons []
      · rw [List.takeWhile_cons_of_neg (by simpa using hc)]
        exact List.filter_sublist

theorem map_toList_partsOf (text : String) :
    (Path.partsOf text).map String.toList =
      (text.toList.splitOn '/').filter fun piece => piece ≠ [] ∧ piece ≠ ['.'] := by
  have hdot (piece : List Char) : String.ofList piece = "." ↔ piece = ['.'] := by
    rw [← String.toList_inj, String.toList_ofList]
    rfl
  rw [Path.partsOf, Text.splitAt_eq_splitOn, List.filter_map, List.map_map]
  simp [Function.comp_def, hdot]

theorem leadingSlashes_le (count : Nat) : Path.leadingSlashes count ≤ count := by
  rw [Path.leadingSlashes]
  split <;> omega

theorem toList_text_ofText_sublist {text : String}
    (hnamed : (Path.ofText text).slashes ≠ 0 ∨ (Path.ofText text).parts ≠ []) :
    (Path.ofText text).text.toList.Sublist text.toList := by
  have hslashes : (Path.ofText text).slashes ≤ (text.toList.takeWhile (· = '/')).length := leadingSlashes_le _
  by_cases hparts : (Path.ofText text).parts = []
  · rw [Path.toList_text hnamed, hparts, List.map_nil, List.intercalate_nil, List.append_nil]
    have hrun : text.toList.takeWhile (· = '/') =
        List.replicate (text.toList.takeWhile (· = '/')).length '/' := by
      apply List.eq_replicate_of_mem
      intro c hc
      simpa using List.mem_takeWhile_imp hc
    refine ((List.replicate_sublist_replicate '/').2 hslashes).trans ?_
    rw [← hrun]
    exact (List.takeWhile_prefix _).sublist
  · have hpieces : (List.replicate (Path.ofText text).slashes [] ++
        (Path.ofText text).parts.map String.toList).Sublist (text.toList.splitOn '/') := by
      refine List.Sublist.trans ?_ (replicate_append_filter_sublist text.toList)
      rw [← map_toList_partsOf]
      exact ((List.replicate_sublist_replicate []).2 hslashes).append (List.Sublist.refl _)
    rw [Path.toList_text_of_parts hparts]
    have hjoined := Text.intercalate_sublist '/' hpieces
    rwa [List.intercalate_splitOn] at hjoined

theorem size_text_ofText_le {text : String} (hempty : text ≠ "") :
    (Path.ofText text).text.utf8ByteSize ≤ text.utf8ByteSize := by
  by_cases hnamed : (Path.ofText text).slashes ≠ 0 ∨ (Path.ofText text).parts ≠ []
  · rw [← String.utf8Len_toList, ← String.utf8Len_toList]
    exact String.utf8Len_le_of_sublist (toList_text_ofText_sublist hnamed)
  · have hpos := String.utf8ByteSize_eq_zero_iff.not.2 hempty
    rw [Path.text_of_unnamed hnamed, show ".".utf8ByteSize = 1 by decide]
    omega

theorem head?_eq_slash_iff {text : String} :
    text.toList.head? = some '/' ↔ (Path.ofText text).absolute = true := by
  have habsolute : (Path.ofText text).absolute = true ↔ text.toList.takeWhile (· = '/') ≠ [] := by
    rw [Path.absolute, decide_eq_true_eq, ne_eq (List.takeWhile _ _), ← List.length_eq_zero_iff]
    show Path.leadingSlashes _ ≠ 0 ↔ _
    rw [Path.leadingSlashes]
    split <;> omega
  rw [habsolute]
  cases text.toList with
  | nil => simp
  | cons c chars => by_cases hc : c = '/' <;> simp [hc]

/-- A text that leads somewhere leads where the text of its path leads. -/
theorem locate_ofText {tree : FileTree} {text : String} {names : List String}
    (hlocate : tree.locate text = .ok names) : tree.locate (Path.ofText text).text = .ok names := by
  obtain ⟨hnull, hempty, hshort, hway⟩ := locate_text_eq_ok_iff.1 hlocate
  rw [locate_eq_ok_iff (Path.ofText_isProper text)]
  refine ⟨?_, Nat.lt_of_le_of_lt (size_text_ofText_le hempty) hshort, ?_⟩
  · rw [Path.mem_text_iff (by decide) (by decide)]
    rintro ⟨part, hpart, hmem⟩
    exact hnull (mem_of_mem_splitAt (List.mem_of_mem_filter hpart) hmem)
  · rw [origin]
    simp only [head?_eq_slash_iff] at hway
    exact follow_stops_ofText hempty hway

theorem holds_of_long {tree : FileTree} {text : String} (hlong : pathBound ≤ text.utf8ByteSize) :
    tree.holds text = false := by
  cases hlocate : tree.locate text with
  | error fault => rw [holds, isFile, isDirectory, hlocate]; rfl
  | ok names => exact absurd hlong (Nat.not_le.2 (locate_text_eq_ok_iff.1 hlocate).2.2.1)

/-! ### Names below a text -/

/-- Names written below a text. -/
def textBelow (front : String) (names : List String) : String := front ++ "/" ++ "/".intercalate names

theorem textBelow_append (front : String) {names others : List String} (hnames : names ≠ []) (hothers : others ≠ []) :
    textBelow front (names ++ others) = textBelow (textBelow front names) others := by
  simp only [textBelow, Text.intercalate_append_texts _ hnames hothers, String.append_assoc]

theorem textBelow_concat (front : String) (names : List String) (last suffix : String) :
    textBelow front (names ++ [last]) ++ suffix = textBelow front (names ++ [last ++ suffix]) := by
  have hjoined (other : String) : ("/".intercalate (names ++ [other])).toList =
      (names.map String.toList).flatMap (· ++ ['/']) ++ other.toList := by
    rw [String.toList_intercalate, List.map_append, List.map_singleton]
    exact Text.intercalate_concat _ _ _
  simp only [textBelow, ← String.toList_inj, String.toList_append, hjoined, List.append_assoc]

theorem getLast?_textBelow (front : String) {names : List String} (hnil : names ≠ [])
    (hnames : ∀ name ∈ names, Path.IsPart name) : (textBelow front names).toList.getLast? ≠ some '/' := by
  obtain ⟨others, last, rfl⟩ := (List.eq_nil_or_concat names).resolve_left hnil
  have hlast := hnames last (by simp)
  have hjoined : ("/".intercalate (others ++ [last])).toList =
      (others.map String.toList).flatMap (· ++ ['/']) ++ last.toList := by
    rw [String.toList_intercalate, List.map_append, List.map_singleton]
    exact Text.intercalate_concat _ _ _
  rw [textBelow, List.concat_eq_append, String.toList_append, hjoined, ← List.append_assoc,
    List.getLast?_append_of_ne_nil _ (String.toList_eq_nil_iff.not.2 hlast.1)]
  intro hslash
  exact hlast.2.2 (List.mem_of_getLast? hslash)

theorem waypoints_textBelow (front : String) {names : List String} (hnil : names ≠ [])
    (hnames : ∀ name ∈ names, Path.IsPart name) :
    waypoints (textBelow front names) = (Text.splitAt '/' front).filter (· ≠ "") ++ names := by
  rw [waypoints, if_neg (getLast?_textBelow front hnil hnames), textBelow, Text.splitAt_append rfl,
    Text.splitAt_intercalate rfl hnil fun name hname => (hnames name hname).2.2, List.filter_append]
  congr 1
  apply List.filter_eq_self.2
  intro name hname
  exact decide_eq_true (hnames name hname).1

theorem takeWhile_intercalate {names : List String} (hnil : names ≠ [])
    (hnames : ∀ name ∈ names, Path.IsPart name) : ("/".intercalate names).toList.takeWhile (· = '/') = [] := by
  have hproper : (Path.relative names).IsProper := ⟨Nat.zero_le _, hnames⟩
  have hhead := (head?_text hproper).not.2 Bool.false_ne_true
  rw [Path.text_relative hnil] at hhead
  cases hchars : ("/".intercalate names).toList with
  | nil => rfl
  | cons c chars =>
      rw [hchars, List.head?_cons, Option.some.injEq] at hhead
      exact List.takeWhile_cons_of_neg (by simpa using hhead)

theorem partsOf_intercalate {names : List String} (hnil : names ≠ []) (hnames : ∀ name ∈ names, Path.IsPart name) :
    Path.partsOf ("/".intercalate names) = names := by
  rw [Path.partsOf, Text.splitAt_intercalate rfl hnil fun name hname => (hnames name hname).2.2]
  apply List.filter_eq_self.2
  intro name hname
  exact decide_eq_true ⟨(hnames name hname).1, (hnames name hname).2.1⟩

theorem ofText_intercalate {names : List String} (hnil : names ≠ []) (hnames : ∀ name ∈ names, Path.IsPart name) :
    Path.ofText ("/".intercalate names) = .relative names := by
  rw [Path.ofText, takeWhile_intercalate hnil hnames, partsOf_intercalate hnil hnames]
  rfl

theorem ofText_textBelow (front : String) {names : List String} (hnil : names ≠ [])
    (hnames : ∀ name ∈ names, Path.IsPart name) :
    Path.ofText (textBelow front names) = (Path.ofText (front ++ "/")).join (.relative names) := by
  have hslashes : (textBelow front names).toList.takeWhile (· = '/') = (front ++ "/").toList.takeWhile (· = '/') := by
    rw [textBelow, String.toList_append, List.takeWhile_append, takeWhile_intercalate hnil hnames, List.append_nil]
    split
    · rename_i hall
      exact ((List.takeWhile_prefix _).eq_of_length hall).symm
    · rfl
  have hfront : Path.partsOf (front ++ "/") = Path.partsOf front := by
    rw [← String.append_empty (s := front ++ "/"), Path.partsOf_append]
    exact List.append_nil _
  have hparts : Path.partsOf (textBelow front names) = Path.partsOf (front ++ "/") ++ names := by
    rw [textBelow, Path.partsOf_append, partsOf_intercalate hnil hnames, hfront]
  rw [Path.join_relative_eq, Path.ofText, Path.ofText, hslashes, hparts]

theorem text_join {path : Path} (hparts : path.parts ≠ []) {names : List String} (hnil : names ≠ []) :
    (path.join (.relative names)).text = textBelow path.text names := by
  rw [← String.toList_inj, Path.join_relative_eq, Path.toList_text (.inr (by simp [hparts])), List.map_append,
    Text.intercalate_append _ (by simpa using hparts) (by simpa using hnil), textBelow, String.toList_append,
    String.toList_append, Path.toList_text (.inr hparts), String.toList_intercalate]
  simp only [List.append_assoc]
  rfl

/-- Names below a text lead to a file below where the text leads, unless the text becomes too long. -/
theorem locate_textBelow {tree : FileTree} {front : String} {start names : List String}
    (hstart : tree.locate front = .ok start) (hlast : front.toList.getLast? ≠ some '/') (hnil : names ≠ [])
    (hnames : ∀ name ∈ names, IsName name) (hfile : tree.isFileAt (start ++ names) = true)
    (hshort : (textBelow front names).utf8ByteSize < pathBound) :
    tree.locate (textBelow front names) = .ok (start ++ names) := by
  obtain ⟨hnull, hempty, -, hway⟩ := locate_text_eq_ok_iff.1 hstart
  have hhead : (textBelow front names).toList.head? = front.toList.head? := by
    obtain ⟨c, chars, hchars⟩ := List.exists_cons_of_ne_nil (String.toList_eq_nil_iff.not.2 hempty)
    simp [textBelow, String.toList_append, hchars]
  rw [locate_text_eq_ok_iff]
  refine ⟨?_, ?_, hshort, ?_⟩
  · have hjoined := notMem_intercalate (show '\x00' ≠ '/' by decide) fun name hname => (hnames name hname).null
    simp only [textBelow, String.toList_append, List.mem_append, not_or]
    exact ⟨⟨hnull, by decide⟩, hjoined⟩
  · intro htext
    rw [htext] at hhead
    exact hempty (String.toList_eq_nil_iff.1 (List.head?_eq_none_iff.1 hhead.symm))
  · rw [waypoints, if_neg hlast] at hway
    rw [hhead, waypoints_textBelow front hnil fun name hname => (hnames name hname).isPart, follow_append, hway]
    exact follow_file hnames hfile

/-! ### Paths that differ in their slashes -/

theorem partsOf_text {path : Path} (hproper : path.IsProper) : Path.partsOf path.text = path.parts := by
  rw [← filter_waypoints, waypoints_text hproper, stops]
  split
  · rename_i hparts
    rw [hparts]
    rfl
  · apply List.filter_eq_self.2
    intro part hpart
    exact decide_eq_true (hproper.parts part hpart).2.1

theorem takeWhile_text_append {path : Path} (hproper : path.IsProper) (hroot : ¬ path.IsRoot) (rest : List Char) :
    (path.text.toList ++ rest).takeWhile (· = '/') = List.replicate path.slashes '/' := by
  have htext : ∃ c chars, path.text.toList = List.replicate path.slashes '/' ++ c :: chars ∧ c ≠ '/' := by
    by_cases hparts : path.parts = []
    · have hslashes : path.slashes = 0 := not_not.1 fun hslashes => hroot ⟨hslashes, hparts⟩
      rw [Path.text_of_unnamed (by simp [hslashes, hparts]), hslashes]
      exact ⟨'.', [], rfl, by decide⟩
    · obtain ⟨part, others, hothers⟩ := List.exists_cons_of_ne_nil hparts
      have hpart := hproper.parts part (hothers ▸ List.mem_cons_self)
      obtain ⟨c, chars, hchars⟩ := List.exists_cons_of_ne_nil (String.toList_eq_nil_iff.not.2 hpart.1)
      rw [Path.toList_text (.inr hparts), hothers, List.map_cons, Text.intercalate_cons_eq_flatMap, hchars]
      exact ⟨c, _, rfl, fun hc => hpart.2.2 (hchars ▸ hc ▸ List.mem_cons_self)⟩
  obtain ⟨c, chars, hchars, hc⟩ := htext
  rw [hchars, List.append_assoc, List.takeWhile_append_of_pos (by simp), List.cons_append,
    List.takeWhile_cons_of_neg (by simpa using hc), List.append_nil]

/-- What is written below the text of a path other than the root lies below the path. -/
theorem ofText_text_append {path : Path} (hproper : path.IsProper) (hroot : ¬ path.IsRoot) (rest : String) :
    Path.ofText (path.text ++ "/" ++ rest) = path.join (.relative (Path.partsOf rest)) := by
  have hslashes : Path.leadingSlashes path.slashes = path.slashes := if_pos hproper.slashes
  rw [Path.ofText, Path.partsOf_append, partsOf_text hproper, String.append_assoc, String.toList_append,
    takeWhile_text_append hproper hroot, List.length_replicate, hslashes, Path.join_relative_eq]

theorem size_lt_of_exists? {tree : FileTree} {path : Path} (hproper : path.IsProper) {answer : Bool}
    (hnull : '\x00' ∉ path.text.toList) (hexists : tree.exists? path = .ok answer) :
    path.text.utf8ByteSize < pathBound := by
  by_contra hlong
  have hreach : tree.reach path.text = .error .long := by
    rw [reach_text tree hproper, if_pos (Nat.le_of_not_lt hlong)]
  rw [exists?_eq_error_iff.2 ⟨hnull, hreach, rfl⟩] at hexists
  cases hexists

section

variable {tree : FileTree} {path other : Path} (hpath : path.IsProper) (hother : other.IsProper)
  (habsolute : other.absolute = path.absolute) (hparts : other.parts = path.parts)

include hpath hother habsolute hparts

theorem locate_of_parts {answer : Bool} (hasked : tree.exists? other = .ok answer) {names : List String}
    (hnames : tree.locate path.text = .ok names) : tree.locate other.text = .ok names := by
  obtain ⟨hnull, -, hfollow⟩ := (locate_eq_ok_iff hpath).1 hnames
  have hnullOther : '\x00' ∉ other.text.toList := by
    rw [Path.mem_text_iff (by decide) (by decide)] at hnull ⊢
    rwa [hparts]
  refine (locate_eq_ok_iff hother).2 ⟨hnullOther, size_lt_of_exists? hother hnullOther hasked, ?_⟩
  rwa [origin, stops, habsolute, hparts]

/-- Paths with the same names from the same start lead to the same place, if both can be asked about. -/
theorem holds_eq_of_parts {answer otherAnswer : Bool} (hasked : tree.exists? path = .ok answer)
    (hotherAsked : tree.exists? other = .ok otherAnswer) : tree.holds path.text = tree.holds other.text := by
  rw [Bool.eq_iff_iff, holds_iff, holds_iff]
  constructor
  · rintro ⟨names, hnames, hplace⟩
    exact ⟨names, locate_of_parts hpath hother habsolute hparts hotherAsked hnames, hplace⟩
  · rintro ⟨names, hnames, hplace⟩
    exact ⟨names, locate_of_parts hother hpath habsolute.symm hparts.symm hasked hnames, hplace⟩

end

end ProofDump.FileTree
