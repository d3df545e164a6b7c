import Mathlib.Data.List.DropRight
import ProofDump.Ast.Extract
import ProofDump.Proofs.Text.Parts
import ProofDump.Proofs.Text.Search

/-!
# Full names and the mark of the root

The full name of a declaration should be the components of the open namespaces and of its own name, without
those that mark the root. It is made from texts instead: names that are the mark are dropped, the others
are joined, and then the mark is cut out wherever a dot follows it. The two differ where a component
only ends with the mark, since it loses the mark and the dot, and where the last component is the mark,
since no dot follows it.
-/

namespace ProofDump.Ast

def rootMark : List Char := "_root_".toList

/-- The parts of names between dots. -/
def components (names : List String) : List (List Char) :=
  names.flatMap fun name => name.toList.splitOn '.'

/-- The components of names that do not mark the root. -/
def significant (names : List String) : List (List Char) :=
  (components names).filter (· ≠ rootMark)

/-- The name of a declaration in open namespaces: their components and its own, joined with dots, without
those that mark the root. -/
def qualified (namespaces : List String) (name : String) : String :=
  String.ofList (['.'].intercalate (significant (namespaces ++ [name])))

theorem dot_notMem_rootMark : '.' ∉ rootMark := by decide

theorem components_cons (name : String) (names : List String) :
    components (name :: names) = name.toList.splitOn '.' ++ components names := List.flatMap_cons

theorem dot_notMem_of_mem_components {names : List String} {component : List Char}
    (hcomponent : component ∈ components names) : '.' ∉ component := by
  obtain ⟨name, -, hname⟩ := List.mem_flatMap.1 hcomponent
  exact Text.notMem_of_mem_splitOn hname

theorem toList_intercalate_dot (names : List String) :
    (".".intercalate names).toList = ['.'].intercalate (components names) := by
  rw [String.toList_intercalate]
  show ['.'].intercalate _ = _
  induction names with
  | nil => rfl
  | cons name names ih =>
      have hname : ['.'].intercalate (name.toList.splitOn '.') = name.toList :=
        List.intercalate_splitOn '.'
      cases names with
      | nil => simp [components, hname]
      | cons next names =>
          have hcomponents : components (next :: names) ≠ [] := by
            simp [components, List.splitOn_ne_nil]
          rw [List.map_cons, List.map_cons, List.intercalate_cons_cons, ← List.map_cons, ih,
            components_cons name, Text.intercalate_append _ (List.splitOn_ne_nil _ _) hcomponents, hname]

/-! ### Cutting the mark out -/

def cutMarks (text : List Char) : List Char := Text.replace (rootMark ++ ['.']) [] text

def cutInnerMarks (text : List Char) : List Char := Text.replace ('.' :: (rootMark ++ ['.'])) ['.'] text

theorem toList_fullName (namespaces : List String) (name : String) :
    (fullName namespaces name).toList =
      cutMarks (cutInnerMarks (".".intercalate ((namespaces ++ [name]).filter (· ≠ "_root_"))).toList) := by
  rw [fullName, String.toList_ofList]
  rfl

@[simp] theorem cutMarks_append (text : List Char) : cutMarks (rootMark ++ '.' :: text) = cutMarks text := by
  have happend := Text.replace_append (List.concat_ne_nil '.' rootMark) [] text
  rw [List.append_assoc] at happend
  exact happend

@[simp] theorem cutMarks_dot (text : List Char) : cutMarks ('.' :: text) = '.' :: cutMarks text := by
  refine Text.replace_cons [] ?_
  rw [rootMark]
  simp

theorem cutInnerMarks_append (text : List Char) :
    cutInnerMarks ('.' :: (rootMark ++ '.' :: text)) = '.' :: cutInnerMarks text := by
  have happend := Text.replace_append (List.cons_ne_nil '.' (rootMark ++ ['.'])) ['.'] text
  rw [List.cons_append, List.append_assoc] at happend
  exact happend

theorem cutInnerMarks_of_notMem {component : List Char} (hdot : '.' ∉ component) (text : List Char) :
    cutInnerMarks (component ++ text) = component ++ cutInnerMarks text := by
  induction component with
  | nil => rfl
  | cons c component ih =>
      rw [List.mem_cons, not_or] at hdot
      have hnot : ¬ '.' :: (rootMark ++ ['.']) <+: c :: (component ++ text) := by
        rw [List.cons_prefix_cons]
        exact fun hstarts => hdot.1 hstarts.1
      rw [List.cons_append, cutInnerMarks, Text.replace_cons _ hnot]
      exact congrArg (c :: ·) (ih hdot.2)

/-- Up to the first dot nothing is cut out between dots. -/
theorem prefix_of_prefix_cutInnerMarks {component text : List Char} (hdot : '.' ∉ component)
    (hstarts : component ++ ['.'] <+: cutInnerMarks text) : component ++ ['.'] <+: text := by
  induction text generalizing component with
  | nil => exact hstarts
  | cons c text ih =>
      by_cases hinner : '.' :: (rootMark ++ ['.']) <+: c :: text
      · obtain ⟨rest, hrest⟩ := hinner
        rw [List.cons_append, List.append_assoc] at hrest
        rw [← hrest, List.singleton_append, cutInnerMarks_append] at hstarts
        rw [← hrest]
        cases component with
        | nil => simp
        | cons first component => simp_all
      · rw [cutInnerMarks, Text.replace_cons _ hinner] at hstarts
        cases component with
        | nil => simpa using hstarts
        | cons first component =>
            rw [List.mem_cons, not_or] at hdot
            rw [List.cons_append, List.cons_prefix_cons] at hstarts ⊢
            exact ⟨hstarts.1, ih hdot.2 hstarts.2⟩

/-- After a dot a mark may be cut out, which would be cut out anyway. -/
theorem cutInnerMarks_dot (text : List Char) :
    ∃ rest, rest.length ≤ text.length ∧ cutMarks rest = cutMarks text ∧
      cutInnerMarks ('.' :: text) = '.' :: cutInnerMarks rest := by
  by_cases hmark : rootMark ++ ['.'] <+: text
  · obtain ⟨rest, rfl⟩ := hmark
    rw [List.append_assoc, List.singleton_append]
    exact ⟨rest, by simp; omega, (cutMarks_append rest).symm, cutInnerMarks_append rest⟩
  · refine ⟨text, le_refl _, rfl, Text.replace_cons _ ?_⟩
    rw [List.cons_prefix_cons]
    exact fun hstarts => hmark hstarts.2

/-- Cutting the mark out between dots first makes no difference. -/
theorem cutMarks_cutInnerMarks (text : List Char) : cutMarks (cutInnerMarks text) = cutMarks text := by
  induction hlength : text.length using Nat.strongRecOn generalizing text with
  | ind length ih =>
      subst hlength
      cases text with
      | nil => rfl
      | cons c text =>
          by_cases hdot : c = '.'
          · obtain ⟨rest, hshorter, hrest, hcut⟩ := cutInnerMarks_dot text
            rw [hdot, hcut, cutMarks_dot, cutMarks_dot, ← hrest,
              ih rest.length (by simp; omega) rest rfl]
          · by_cases hmark : rootMark ++ ['.'] <+: c :: text
            · -- The dot at the end of this mark may be the first of a mark between dots.
              obtain ⟨after, hafter⟩ := hmark
              rw [List.append_assoc, List.singleton_append] at hafter
              obtain ⟨rest, hshorter, hrest, hcut⟩ := cutInnerMarks_dot after
              rw [← hafter] at ih ⊢
              rw [cutInnerMarks_of_notMem dot_notMem_rootMark, hcut, cutMarks_append, cutMarks_append,
                ← hrest, ih rest.length (by simp; omega) rest rfl]
            · -- No mark starts here, nor does one after the cutting, which reaches no further than a dot.
              have hsingle : '.' ∉ [c] := by simpa using Ne.symm hdot
              have hcut : cutInnerMarks (c :: text) = c :: cutInnerMarks text :=
                cutInnerMarks_of_notMem hsingle text
              have hnot : ¬ rootMark ++ ['.'] <+: c :: cutInnerMarks text := fun hstarts =>
                hmark (prefix_of_prefix_cutInnerMarks dot_notMem_rootMark (hcut ▸ hstarts))
              rw [hcut, cutMarks, Text.replace_cons [] hnot, cutMarks, Text.replace_cons [] hmark]
              exact congrArg (c :: ·) (ih text.length (by simp) text rfl)

/-! ### What is left of components -/

/-- What is left of a component with a dot after it: all of it and the dot, or what stands before the mark
at its end. -/
def leftOf (component : List Char) : List Char :=
  if rootMark <:+ component then component.rdrop rootMark.length else component ++ ['.']

def leftOfAll (parts : List (List Char)) : List Char :=
  parts.dropLast.flatMap leftOf ++ parts.getLast?.getD []

theorem leftOf_of_not_suffix {component : List Char} (hmark : ¬ rootMark <:+ component) :
    leftOf component = component ++ ['.'] := if_neg hmark

theorem leftOf_append_mark {component : List Char} (hmark : rootMark <:+ component) :
    leftOf component ++ rootMark = component := by
  obtain ⟨before, rfl⟩ := hmark
  rw [leftOf, if_pos (List.suffix_append before rootMark), List.rdrop, List.length_append,
    Nat.add_sub_cancel, List.take_left]

@[simp] theorem leftOf_mark : leftOf rootMark = [] := by decide

theorem leftOf_cons {c : Char} {component : List Char} (hmark : c :: component ≠ rootMark) :
    leftOf (c :: component) = c :: leftOf component := by
  have hiff : rootMark <:+ c :: component ↔ rootMark <:+ component := by
    rw [List.suffix_cons_iff]
    exact or_iff_right (Ne.symm hmark)
  by_cases hsuffix : rootMark <:+ component
  · have hwhole : leftOf (c :: component) ++ rootMark = c :: leftOf component ++ rootMark := by
      rw [leftOf_append_mark (hiff.2 hsuffix), List.cons_append, leftOf_append_mark hsuffix]
    exact List.append_cancel_right hwhole
  · rw [leftOf_of_not_suffix (hiff.not.2 hsuffix), leftOf_of_not_suffix hsuffix, List.cons_append]

theorem eq_of_append_dot_starts {component other text : List Char} (hdot : '.' ∉ component)
    (hother : '.' ∉ other) (hstarts : component ++ ['.'] <+: other ++ '.' :: text) :
    component = other := by
  induction component generalizing other with
  | nil =>
      cases other with
      | nil => rfl
      | cons first other => simp_all
  | cons c component ih =>
      cases other with
      | nil => simp_all
      | cons first other =>
          rw [List.mem_cons, not_or] at hdot hother
          rw [List.cons_append, List.cons_append, List.cons_prefix_cons] at hstarts
          rw [hstarts.1, ih hdot.2 hother.2 hstarts.2]

theorem cutMarks_component {component : List Char} (hdot : '.' ∉ component) (text : List Char) :
    cutMarks (component ++ '.' :: text) = leftOf component ++ cutMarks text := by
  induction component with
  | nil => exact cutMarks_dot text
  | cons c component ih =>
      by_cases hmark : c :: component = rootMark
      · rw [hmark, cutMarks_append, leftOf_mark, List.nil_append]
      · have hnot : ¬ rootMark ++ ['.'] <+: c :: component ++ '.' :: text := fun hstarts =>
          hmark (eq_of_append_dot_starts dot_notMem_rootMark hdot hstarts).symm
        rw [List.cons_append] at hnot ⊢
        rw [leftOf_cons hmark, cutMarks, Text.replace_cons [] hnot]
        exact congrArg (c :: ·) (ih fun hmem => hdot (List.mem_cons_of_mem c hmem))

theorem cutMarks_intercalate {parts : List (List Char)} (hdots : ∀ part ∈ parts, '.' ∉ part) :
    cutMarks (['.'].intercalate parts) = leftOfAll parts := by
  induction parts with
  | nil => rfl
  | cons part parts ih =>
      have hpart := hdots part List.mem_cons_self
      cases parts with
      | nil =>
          -- Nothing is cut out of a last component, which no dot follows.
          rw [List.intercalate_singleton]
          refine Text.replace_of_not_infix [] fun hoccurs => hpart (hoccurs.subset ?_)
          simp
      | cons next parts =>
          rw [List.intercalate_cons_cons, List.append_assoc, List.singleton_append,
            cutMarks_component hpart, ih fun other hother => hdots other (List.mem_cons_of_mem _ hother)]
          simp [leftOfAll]

theorem leftOfAll_concat (parts : List (List Char)) (last : List Char) :
    leftOfAll (parts ++ [last]) = parts.flatMap leftOf ++ last := by
  simp [leftOfAll]

theorem flatMap_leftOf_filter (parts : List (List Char)) :
    (parts.filter (· ≠ rootMark)).flatMap leftOf = parts.flatMap leftOf := by
  induction parts with
  | nil => rfl
  | cons part parts ih =>
      by_cases hmark : part = rootMark
      · rw [List.filter_cons_of_neg (by simpa using hmark), ih, List.flatMap_cons, hmark, leftOf_mark,
          List.nil_append]
      · rw [List.filter_cons_of_pos (by simpa using hmark), List.flatMap_cons, List.flatMap_cons, ih]

theorem length_leftOf_le (component : List Char) :
    (leftOf component).length ≤ (component ++ ['.']).length := by
  by_cases hmark : rootMark <:+ component
  · have hlength := congrArg List.length (leftOf_append_mark hmark)
    rw [List.length_append] at hlength ⊢
    omega
  · rw [leftOf_of_not_suffix hmark]

theorem length_flatMap_leftOf_le (parts : List (List Char)) :
    (parts.flatMap leftOf).length ≤ (parts.flatMap (· ++ ['.'])).length := by
  induction parts with
  | nil => exact le_refl _
  | cons part parts ih =>
      have hpart := length_leftOf_le part
      rw [List.flatMap_cons, List.flatMap_cons, List.length_append, List.length_append]
      omega

theorem flatMap_leftOf_eq_iff {parts : List (List Char)} :
    parts.flatMap leftOf = parts.flatMap (· ++ ['.']) ↔ ∀ part ∈ parts, ¬ rootMark <:+ part := by
  constructor
  · intro heq
    replace heq := (congrArg List.length heq).ge
    induction parts with
    | nil => simp
    | cons part parts ih =>
        have hle := length_flatMap_leftOf_le parts
        have hpart := length_leftOf_le part
        have hcut (hmark : rootMark <:+ part) : (leftOf part).length + 6 = part.length :=
          List.length_append.symm.trans (congrArg List.length (leftOf_append_mark hmark))
        simp only [List.flatMap_cons, List.length_append, List.length_singleton] at heq hpart
        rw [List.forall_mem_cons]
        refine ⟨fun hmark => ?_, ih (by omega)⟩
        have hshorter := hcut hmark
        omega
  · intro hparts
    rw [List.flatMap_def, List.flatMap_def]
    refine congrArg List.flatten (List.map_congr_left fun part hpart => ?_)
    exact leftOf_of_not_suffix (hparts part hpart)

/-- The last component is the mark only if the last one that counts ends with the mark, and so stands in
for it. -/
def LastStands (parts : List (List Char)) : Prop :=
  parts.getLast? = some rootMark →
    ∃ last ∈ (parts.filter (· ≠ rootMark)).getLast?, rootMark <:+ last

theorem leftOfAll_of_lastStands {parts : List (List Char)} (hstands : LastStands parts) :
    leftOfAll parts = leftOfAll (parts.filter (· ≠ rootMark)) := by
  rcases List.eq_nil_or_concat parts with rfl | ⟨others, last, rfl⟩
  · rfl
  · rw [List.concat_eq_append] at hstands ⊢
    rw [leftOfAll_concat, ← flatMap_leftOf_filter, List.filter_append]
    by_cases hlast : last = rootMark
    · obtain ⟨counts, hcounts, hmark⟩ := hstands (by simp [hlast])
      rw [List.filter_append, List.filter_cons_of_neg (by simpa using hlast), List.filter_nil,
        List.append_nil] at hcounts
      obtain ⟨before, hbefore⟩ := List.getLast?_eq_some_iff.1 hcounts
      rw [List.filter_cons_of_neg (by simpa using hlast), List.filter_nil, List.append_nil, hbefore,
        leftOfAll_concat, hlast, List.flatMap_append, List.flatMap_singleton, List.append_assoc,
        leftOf_append_mark hmark]
    · rw [List.filter_cons_of_pos (by simpa using hlast), List.filter_nil, leftOfAll_concat]

theorem lastStands_of_leftOfAll {parts others : List (List Char)}
    (hdots : ∀ part ∈ others, '.' ∉ part) (hmarks : rootMark ∉ others)
    (heq : leftOfAll parts = ['.'].intercalate others) : LastStands parts := by
  intro hlast
  obtain ⟨before, rfl⟩ := List.getLast?_eq_some_iff.1 hlast
  rw [leftOfAll_concat, ← flatMap_leftOf_filter] at heq
  rw [List.filter_append, List.filter_cons_of_neg (by simp), List.filter_nil, List.append_nil]
  -- Otherwise the text would end in a component that is the mark.
  rcases List.eq_nil_or_concat (before.filter (· ≠ rootMark)) with hnil | ⟨counting, last, hcounting⟩
  · rw [hnil, List.flatMap_nil, List.nil_append] at heq
    have hothers : others ≠ [] := by
      rintro rfl
      exact absurd heq (by decide)
    have hsame : [rootMark] = others := by
      refine Text.intercalate_inj ?_ hdots (List.cons_ne_nil _ _) hothers ?_
      · simpa using dot_notMem_rootMark
      · rw [List.intercalate_singleton, heq]
    exact absurd (hsame ▸ List.mem_singleton_self rootMark) hmarks
  · rw [List.concat_eq_append] at hcounting
    rw [hcounting] at heq ⊢
    refine ⟨last, by simp, ?_⟩
    by_contra hmark
    have hend : ['.'].intercalate others = counting.flatMap leftOf ++ last ++ '.' :: rootMark := by
      rw [← heq, List.flatMap_append, List.flatMap_singleton, leftOf_of_not_suffix hmark]
      simp only [List.append_assoc, List.singleton_append]
    exact hmarks (Text.mem_of_intercalate_eq hdots dot_notMem_rootMark hend)

theorem leftOfAll_eq_intercalate_iff {parts : List (List Char)} :
    leftOfAll parts = ['.'].intercalate parts ↔ ∀ part ∈ parts.dropLast, ¬ rootMark <:+ part := by
  rcases List.eq_nil_or_concat parts with rfl | ⟨others, last, rfl⟩
  · exact iff_of_true rfl (by simp)
  · rw [List.concat_eq_append, leftOfAll_concat, Text.intercalate_concat, List.append_left_inj,
      flatMap_leftOf_eq_iff, List.dropLast_concat]

theorem length_leftOfAll_le (parts : List (List Char)) :
    (leftOfAll parts).length ≤ (['.'].intercalate parts).length := by
  rcases List.eq_nil_or_concat parts with rfl | ⟨others, last, rfl⟩
  · exact le_refl _
  · have hothers := length_flatMap_leftOf_le others
    rw [List.concat_eq_append, leftOfAll_concat, Text.intercalate_concat, List.length_append,
      List.length_append]
    omega

/-- What is left of components is the joined text of components among which those that count are, exactly
when nothing is missing and the marks were cut out well. Two faults never make up for each other. -/
theorem leftOfAll_eq_iff {parts others : List (List Char)} (hdots : ∀ part ∈ others, '.' ∉ part)
    (hmarks : rootMark ∉ others) (hothers : (parts.filter (· ≠ rootMark)).Sublist others) :
    leftOfAll parts = ['.'].intercalate others ↔
      ['.'].intercalate (parts.filter (· ≠ rootMark)) = ['.'].intercalate others ∧
        (∀ part ∈ (parts.filter (· ≠ rootMark)).dropLast, ¬ rootMark <:+ part) ∧ LastStands parts := by
  rw [← leftOfAll_eq_intercalate_iff]
  constructor
  · -- What is left is no longer than the components that count, and those are no longer than the others.
    intro heq
    have hstands := lastStands_of_leftOfAll hdots hmarks heq
    rw [leftOfAll_of_lastStands hstands] at heq
    have hsame := Text.intercalate_eq_of_sublist hothers (heq ▸ length_leftOfAll_le _)
    exact ⟨hsame, heq.trans hsame.symm, hstands⟩
  · rintro ⟨hsame, hcut, hstands⟩
    rw [leftOfAll_of_lastStands hstands, hcut, hsame]

/-! ### Full names -/

/-- The marks in names are cut out well: no component before the last one that counts ends with the mark
without being it, and the last component is not the mark, or stands for one that ends with it. -/
structure MarksCutWell (names : List String) : Prop where
  inner : ∀ component ∈ (significant names).dropLast, ¬ rootMark <:+ component
  last : LastStands (components (names.filter (· ≠ "_root_")))

theorem significant_cons (name : String) (names : List String) :
    significant (name :: names) =
      (name.toList.splitOn '.').filter (· ≠ rootMark) ++ significant names := by
  rw [significant, components_cons, List.filter_append, significant]

theorem significant_filter (names : List String) :
    significant (names.filter (· ≠ "_root_")) = significant names := by
  induction names with
  | nil => rfl
  | cons name names ih =>
      by_cases hname : name = "_root_"
      · have hroot : ("_root_".toList.splitOn '.').filter (· ≠ rootMark) = [] := by decide
        rw [List.filter_cons_of_neg (by simpa using hname), ih, significant_cons, hname, hroot,
          List.nil_append]
      · rw [List.filter_cons_of_pos (by simpa using hname), significant_cons, significant_cons, ih]

/-- The full name made in some of the open namespaces is the qualified name exactly when the others do not
count and the marks are cut out well. -/
theorem fullName_eq_qualified_iff {kept namespaces : List String} (hkept : kept.Sublist namespaces)
    (name : String) :
    fullName kept name = qualified namespaces name ↔
      qualified kept name = qualified namespaces name ∧ MarksCutWell (kept ++ [name]) := by
  have hdots : ∀ part ∈ significant (namespaces ++ [name]), '.' ∉ part := fun part hpart =>
    dot_notMem_of_mem_components (List.mem_of_mem_filter hpart)
  have hmarks : rootMark ∉ significant (namespaces ++ [name]) := by
    simp [significant]
  have hsublist : (significant ((kept ++ [name]).filter (· ≠ "_root_"))).Sublist
      (significant (namespaces ++ [name])) := by
    rw [significant_filter]
    exact ((hkept.append_right [name]).flatMap _).filter _
  have hiff := leftOfAll_eq_iff hdots hmarks hsublist
  rw [← significant, significant_filter] at hiff
  rw [← String.toList_inj, toList_fullName, cutMarks_cutInnerMarks, toList_intercalate_dot,
    cutMarks_intercalate fun part hpart => dot_notMem_of_mem_components hpart, qualified, qualified,
    String.toList_ofList, hiff, String.ofList_inj]
  exact and_congr_right fun _ => ⟨fun hwell => ⟨hwell.1, hwell.2⟩, fun hwell => ⟨hwell.inner, hwell.last⟩⟩

end ProofDump.Ast
