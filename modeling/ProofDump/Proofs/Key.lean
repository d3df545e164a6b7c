import ProofDump.Key
import ProofDump.Proofs.Except
import ProofDump.Proofs.Text.Parts

/-!
# Keys and their capitals

The words of a key can be told from its capitals: a capital that is not at the start stands for an underscore and
its small letter (`fromCapitals_capitals`). The way back that keys have stops at the first character of every key
with capitals, so that it ends well for the empty key alone and no table with another key is converted.
-/

namespace ProofDump

namespace Text

/-! ### Small letters -/

/-- The small letters of ASCII. -/
def smallLetters : List Char := (List.range 26).map fun place => Char.ofNat ('a'.toNat + place)

theorem mem_smallLetters {c : Char} (hsmall : c.isLower = true) : c ∈ smallLetters := by
  have hbounds : 97 ≤ c.toNat ∧ c.toNat ≤ 122 := by
    have hclass : (decide (c.val ≥ 'a'.val) && decide (c.val ≤ 'z'.val)) = true := hsmall
    rw [Bool.and_eq_true, decide_eq_true_eq, decide_eq_true_eq] at hclass
    exact hclass
  refine List.mem_map.2 ⟨c.toNat - 97, List.mem_range.2 (by omega), ?_⟩
  show Char.ofNat (97 + (c.toNat - 97)) = c
  rw [Nat.add_sub_cancel' hbounds.1, Char.ofNat_toNat]

/-- The forms of a small letter and the classes that it is in. -/
structure IsSmall (c : Char) : Prop where
  title : titleForm c = [c.toUpper]
  lower : lowerForm c = [c]
  cased : isCased c = true
  notSigma : c ≠ 'Σ'
  notMark : c ≠ '_'
  notCapital : c.isUpper = false
  same : c.toLower = c
  capital : c.toUpper.isUpper = true
  back : c.toUpper.toLower = c

theorem isSmall {c : Char} (hsmall : c.isLower = true) : IsSmall c := by
  have hall : (smallLetters.all fun c => titleForm c = [c.toUpper] ∧ lowerForm c = [c] ∧ isCased c = true ∧
      c ≠ 'Σ' ∧ c ≠ '_' ∧ c.isUpper = false ∧ c.toLower = c ∧ c.toUpper.isUpper = true ∧
      c.toUpper.toLower = c) = true := by
    decide +kernel
  obtain ⟨title, lower, cased, notSigma, notMark, notCapital, same, capital, back⟩ :=
    of_decide_eq_true (List.all_eq_true.1 hall c (mem_smallLetters hsmall))
  exact ⟨title, lower, cased, notSigma, notMark, notCapital, same, capital, back⟩

/-- After a letter small letters stay as they are. -/
theorem titleFrom_small {last : Char} {before word : List Char} (hlast : isCased last = true)
    (hword : ∀ c ∈ word, c.isLower = true) : titleFrom (last :: before) word = word := by
  induction word generalizing last before with
  | nil => rfl
  | cons c word ih =>
      obtain ⟨hc, hrest⟩ := List.forall_mem_cons.1 hword
      have hsmall := isSmall hc
      have hform : lowerAt (last :: before) c word = [c] := by
        rw [lowerAt, if_neg hsmall.notSigma, hsmall.lower]
      rw [titleFrom, ih hsmall.cased hrest, List.head?_cons, Option.any_some, if_pos hlast, hform]
      rfl

theorem title_small {c : Char} {word : List Char} (hword : ∀ letter ∈ c :: word, letter.isLower = true) :
    title (c :: word) = c.toUpper :: word := by
  obtain ⟨hc, hrest⟩ := List.forall_mem_cons.1 hword
  have hsmall := isSmall hc
  rw [title, titleFrom, titleFrom_small hsmall.cased hrest]
  show titleForm c ++ word = _
  rw [hsmall.title]
  rfl

end Text

namespace Key

/-! ### Words -/

/-- A word of a key: small letters of ASCII, at least one. -/
def IsWord (word : String) : Prop := word ≠ "" ∧ ∀ c ∈ word.toList, c.isLower = true

/-- A word with a capital at its start. -/
def capitalised : List Char → List Char
  | [] => []
  | c :: rest => c.toUpper :: rest

/-- Words one after the other, with a capital at the start of every one but the first. -/
def capitals : List String → List Char
  | [] => []
  | first :: rest => first.toList ++ rest.flatMap fun word => capitalised word.toList

/-- What a character of a key with capitals stands for, if it is not at the start. -/
def spelledOut (c : Char) : List Char := if c.isUpper then ['_', c.toLower] else [c.toLower]

/-- A key read back from its capitals. -/
def fromCapitals : List Char → List Char
  | [] => []
  | first :: rest => first.toLower :: rest.flatMap spelledOut

theorem IsWord.notMem {word : String} (hword : IsWord word) : '_' ∉ word.toList :=
  fun hmark => (Text.isSmall (hword.2 '_' hmark)).notMark rfl

theorem title_capitalised {word : String} (hword : IsWord word) :
    Text.title word.toList = capitalised word.toList := by
  obtain ⟨hne, hsmall⟩ := hword
  obtain ⟨c, rest, hchars⟩ := List.exists_cons_of_ne_nil (String.toList_eq_nil_iff.not.2 hne)
  rw [hchars] at hsmall ⊢
  exact Text.title_small hsmall

theorem toCapitals_words {words : List String} (hnil : words ≠ []) (hwords : ∀ word ∈ words, IsWord word) :
    toCapitals (.str ("_".intercalate words)) = .ok (String.ofList (capitals words)) := by
  obtain ⟨first, rest, rfl⟩ := List.exists_cons_of_ne_nil hnil
  have hsplit : Text.splitAt '_' ("_".intercalate (first :: rest)) = first :: rest :=
    Text.splitAt_intercalate rfl hnil fun word hword => (hwords word hword).notMem
  have htitles : rest.map (fun word => String.ofList (Text.title word.toList)) =
      rest.map fun word => String.ofList (capitalised word.toList) := by
    refine List.map_congr_left fun word hword => ?_
    rw [title_capitalised (hwords word (List.mem_cons_of_mem _ hword))]
  rw [toCapitals, hsplit]
  show Except.ok (first ++ String.join (rest.map fun word => String.ofList (Text.title word.toList))) = _
  rw [htitles]
  refine congrArg Except.ok (String.toList_inj.1 ?_)
  rw [String.toList_append, String.toList_ofList, capitals]
  simp [List.flatMap_map]

theorem flatMap_spelledOut_small {letters : List Char} (hletters : ∀ c ∈ letters, c.isLower = true) :
    letters.flatMap spelledOut = letters := by
  induction letters with
  | nil => rfl
  | cons c letters ih =>
      obtain ⟨hc, hrest⟩ := List.forall_mem_cons.1 hletters
      have hsmall := Text.isSmall hc
      rw [List.flatMap_cons, ih hrest, spelledOut, hsmall.notCapital, hsmall.same]
      rfl

theorem flatMap_spelledOut_capitalised {word : String} (hword : IsWord word) :
    (capitalised word.toList).flatMap spelledOut = '_' :: word.toList := by
  obtain ⟨hne, hsmall⟩ := hword
  obtain ⟨c, rest, hchars⟩ := List.exists_cons_of_ne_nil (String.toList_eq_nil_iff.not.2 hne)
  rw [hchars] at hsmall ⊢
  obtain ⟨hc, hrest⟩ := List.forall_mem_cons.1 hsmall
  rw [capitalised, List.flatMap_cons, flatMap_spelledOut_small hrest, spelledOut,
    if_pos (Text.isSmall hc).capital, (Text.isSmall hc).back]
  rfl

/-- The words of a key can be told from its capitals. -/
theorem fromCapitals_capitals {words : List String} (hwords : ∀ word ∈ words, IsWord word) :
    fromCapitals (capitals words) = ("_".intercalate words).toList := by
  cases words with
  | nil => rfl
  | cons first rest =>
      obtain ⟨⟨hne, hfirst⟩, hrest⟩ := List.forall_mem_cons.1 hwords
      obtain ⟨c, letters, hchars⟩ := List.exists_cons_of_ne_nil (String.toList_eq_nil_iff.not.2 hne)
      rw [hchars] at hfirst
      obtain ⟨hc, hletters⟩ := List.forall_mem_cons.1 hfirst
      have hothers : (rest.flatMap fun word => capitalised word.toList).flatMap spelledOut =
          (rest.map String.toList).flatMap ('_' :: ·) := by
        rw [List.flatMap_assoc, List.flatMap_map]
        exact List.flatMap_congr fun word hword => flatMap_spelledOut_capitalised (hrest word hword)
      rw [String.toList_intercalate, List.map_cons, Text.intercalate_cons_eq_flatMap, capitals, hchars,
        List.cons_append, fromCapitals, (Text.isSmall hc).same, List.flatMap_append,
        flatMap_spelledOut_small hletters, hothers]
      rfl

/-! ### The way back -/

theorem toUnderscores_text {text : String} (hne : text ≠ "") :
    toUnderscores (.str text) = .error (.noAttribute "str" "append") := by
  obtain ⟨c, rest, hchars⟩ := List.exists_cons_of_ne_nil (String.toList_eq_nil_iff.not.2 hne)
  have hitems : (Value.str text).items =
      .ok (.str (String.ofList [c]) :: rest.map fun c => .str (String.ofList [c])) := by
    rw [Value.items, hchars]
    rfl
  rw [toUnderscores, hitems]
  rfl

/-- A table is converted up to the first key that is not empty. -/
theorem tableToUnderscores_eq_error {fields : Fields} {key : String} (hkey : key ∈ fields.map Prod.fst)
    (hne : key ≠ "") : tableToUnderscores (.obj fields) = .error (.noAttribute "str" "append") := by
  rw [tableToUnderscores]
  generalize ([] : Fields) = done
  induction fields generalizing done with
  | nil => cases hkey
  | cons field fields ih =>
      obtain ⟨name, value⟩ := field
      rw [List.foldlM_cons]
      by_cases hname : name = ""
      · subst hname
        exact ih ((List.mem_cons.1 hkey).resolve_left hne) _
      · dsimp only
        rw [toUnderscores_text hname]
        rfl

/-- The capitals of a key tell all its words, but the way back stops with a fault at every such key, and at every
table with one. Of all texts only the empty one comes back. -/
theorem read_back_iff_empty {words : List String} (hnil : words ≠ []) (hwords : ∀ word ∈ words, IsWord word) :
    (∃ key, toCapitals (.str ("_".intercalate words)) = .ok key ∧
      fromCapitals key.toList = ("_".intercalate words).toList ∧
      toUnderscores (.str key) = .error (.noAttribute "str" "append") ∧
      ∀ fields : Fields, key ∈ fields.map Prod.fst →
        tableToUnderscores (.obj fields) = .error (.noAttribute "str" "append")) ∧
    ∀ text, (toCapitals (.str text) >>= fun key => toUnderscores (.str key)) = .ok text ↔ text = "" := by
  constructor
  · have hback := fromCapitals_capitals hwords
    have hne : String.ofList (capitals words) ≠ "" := by
      obtain ⟨first, rest, rfl⟩ := List.exists_cons_of_ne_nil hnil
      intro hempty
      have hfirst := (hwords first List.mem_cons_self).1
      have hchars := congrArg String.toList hempty
      rw [String.toList_ofList, capitals, String.toList_empty, List.append_eq_nil_iff] at hchars
      exact hfirst (String.toList_eq_nil_iff.1 hchars.1)
    refine ⟨_, toCapitals_words hnil hwords, ?_, toUnderscores_text hne, fun fields hkey => ?_⟩
    · rw [String.toList_ofList, hback]
    · exact tableToUnderscores_eq_error hkey hne
  · intro text
    constructor
    · intro hback
      obtain ⟨key, -, hkey⟩ := bind_eq_ok.1 hback
      by_cases hne : key = ""
      · subst hne
        exact (Except.ok.inj hkey).symm
      · rw [toUnderscores_text hne] at hkey
        cases hkey
    · rintro rfl
      rfl

theorem threeWords_not_read_back :
    (∀ word ∈ ["to", "x", "prop"], IsWord word) ∧
    ∃ key, toCapitals (.str "to_x_prop") = .ok key ∧ fromCapitals key.toList = "to_x_prop".toList ∧
      toUnderscores (.str key) = .error (.noAttribute "str" "append") ∧
      tableToUnderscores (.obj [(key, .null)]) = .error (.noAttribute "str" "append") := by
  have hwords : ∀ word ∈ ["to", "x", "prop"], IsWord word := by
    simp [IsWord]
  obtain ⟨key, hkey, hback, hfault, htable⟩ := (read_back_iff_empty (List.cons_ne_nil _ _) hwords).1
  exact ⟨hwords, key, hkey, hback, hfault, htable [(key, .null)] (by simp)⟩

/-- A key of two words gets a capital and does not come back. -/
theorem isProp_not_read_back :
    toCapitals (.str "is_prop") = .ok "isProp" ∧
    toUnderscores (.str "isProp") = .error (.noAttribute "str" "append") ∧
    toUnderscores (.str "isProp") ≠ .ok "is_prop" := by
  have hwords : ∀ word ∈ ["is", "prop"], IsWord word := by simp [IsWord]
  have hfault : toUnderscores (.str "isProp") = .error (.noAttribute "str" "append") :=
    toUnderscores_text (by decide)
  refine ⟨toCapitals_words (by simp) hwords, hfault, ?_⟩
  rw [hfault]
  rintro ⟨⟩

end Key

end ProofDump
