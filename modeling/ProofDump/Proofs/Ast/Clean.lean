import Mathlib.Data.List.DropRight
import ProofDump.Ast.Clean
import ProofDump.Proofs.Text.Blank
import ProofDump.Proofs.Text.Parts

/-!
# What cleaning leaves of a proof

Every step of cleaning deletes characters; none adds or moves one. A line starts a command exactly if after the
start of a line and blanks there is the beginning of one, whatever follows (`hasCommand_iff`). So a text without
such a line keeps none when blanks are taken from its ends, and what is left before the first such line, trimmed,
has none.
-/

namespace ProofDump.Ast

/-! ### Deleted characters -/

theorem dropLineComments_sublist (inside : Bool) (text : List Char) :
    (dropLineComments inside text).Sublist text := by
  fun_induction dropLineComments inside text with
  | case1 => exact List.Sublist.refl _
  | case2 rest ih => exact ih.cons_cons '\n'
  | case3 c rest hc ih => exact ih.cons c
  | case4 inside c rest hinside hmark ih => exact ih.cons c
  | case5 inside c rest hinside hmark ih => exact ih.cons_cons c

theorem afterBlock?_suffix {text rest : List Char} (hrest : afterBlock? text = some rest) : rest <:+ text := by
  fun_induction afterBlock? text with
  | case1 rest =>
      cases hrest
      exact (List.suffix_cons '/' rest).trans (List.suffix_cons '-' _)
  | case2 c text hmark ih => exact (ih hrest).trans (List.suffix_cons c text)
  | case3 => cases hrest

theorem dropBlocks_sublist (text : List Char) : (dropBlocks text).Sublist text := by
  fun_induction dropBlocks text with
  | case1 => exact List.Sublist.refl _
  | case2 body after hblock ih =>
      have hafter := (afterBlock?_suffix hblock).sublist
      exact ((ih.trans hafter).cons '-').cons '/'
  | case3 body hblock ih => exact ih.cons_cons '/'
  | case4 c rest hmark ih => exact ih.cons_cons c

theorem beforeCommand_eq (text : List Char) :
    beforeCommand text = ['\n'].intercalate ((text.splitOn '\n').takeWhile fun line => !startsCommand line) := by
  rw [beforeCommand, Text.split_singleton]

theorem beforeCommand_sublist (text : List Char) : (beforeCommand text).Sublist text := by
  have hlines := Text.intercalate_sublist '\n'
    (List.takeWhile_sublist (fun line => !startsCommand line) (l := text.splitOn '\n'))
  rwa [← beforeCommand_eq, List.intercalate_splitOn] at hlines

theorem clean_sublist (text : List Char) : (clean text).Sublist text :=
  calc (clean text).Sublist _ := Text.strip_sublist _
    List.Sublist _ _ := beforeCommand_sublist _
    List.Sublist _ _ := dropBlocks_sublist _
    List.Sublist _ _ := dropLineComments_sublist false _
    List.Sublist _ _ := Text.strip_sublist _
    List.Sublist _ text := List.dropWhile_sublist isLead

/-! ### Kept characters -/

/-- The mark of a line comment. -/
def lineMark : List Char := ['-', '-']

/-- The mark that opens a block comment. -/
def openMark : List Char := ['/', '-']

/-- The mark that closes a block comment. -/
def closeMark : List Char := ['-', '/']

theorem dropLineComments_cons {c : Char} {rest : List Char} (hmark : ¬ lineMark <+: c :: rest) :
    dropLineComments false (c :: rest) = c :: dropLineComments false rest := by
  rw [dropLineComments, if_neg Bool.false_ne_true, if_neg]
  rintro ⟨rfl, hrest⟩
  obtain ⟨rest, rfl⟩ := List.head?_eq_some_iff.1 hrest
  exact hmark ⟨rest, rfl⟩

theorem dropBlocks_cons {c : Char} {rest : List Char} (hmark : ¬ openMark <+: c :: rest) :
    dropBlocks (c :: rest) = c :: dropBlocks rest := by
  rw [dropBlocks]
  rintro body rfl rfl
  exact hmark ⟨body, rfl⟩

/-- Two characters that are nowhere in a text and do not meet at its end are not at its start. -/
theorem not_prefix_of_ends {first second c : Char} {text rest : List Char}
    (htext : ¬ [first, second] <:+: c :: text)
    (hends : (c :: text).getLast? = some first → rest.head? ≠ some second) :
    ¬ [first, second] <+: c :: (text ++ rest) := by
  intro hbegins
  cases text with
  | nil =>
      obtain ⟨after, hafter⟩ := hbegins
      obtain ⟨rfl, rfl⟩ : first = c ∧ second :: after = rest := by simpa using hafter
      exact hends rfl rfl
  | cons d text =>
      obtain ⟨after, hafter⟩ := hbegins
      obtain ⟨rfl, rfl, -⟩ : first = c ∧ second = d ∧ after = text ++ rest := by simpa using hafter
      exact htext ⟨[], text, rfl⟩

theorem getLast?_of_cons {c : Char} {text : List Char} {last : Char} (hlast : text.getLast? = some last) :
    (c :: text).getLast? = some last := by
  rw [List.getLast?_cons, hlast]
  rfl

theorem dropLineComments_append {code rest : List Char} (hcode : ¬ lineMark <:+: code)
    (hends : code.getLast? = some '-' → rest.head? ≠ some '-') :
    dropLineComments false (code ++ rest) = code ++ dropLineComments false rest := by
  induction code with
  | nil => rfl
  | cons c code ih =>
      have hrest : ¬ lineMark <:+: code := mt List.infix_cons hcode
      rw [List.cons_append, dropLineComments_cons (not_prefix_of_ends hcode hends),
        ih hrest fun hlast => hends (getLast?_of_cons hlast), List.cons_append]

theorem dropBlocks_append {code rest : List Char} (hcode : ¬ openMark <:+: code)
    (hends : code.getLast? = some '/' → rest.head? ≠ some '-') :
    dropBlocks (code ++ rest) = code ++ dropBlocks rest := by
  induction code with
  | nil => rfl
  | cons c code ih =>
      have hrest : ¬ openMark <:+: code := mt List.infix_cons hcode
      rw [List.cons_append, dropBlocks_cons (not_prefix_of_ends hcode hends),
        ih hrest fun hlast => hends (getLast?_of_cons hlast), List.cons_append]

theorem dropLineComments_of_code {code : List Char} (hcode : ¬ lineMark <:+: code) :
    dropLineComments false code = code := by
  have hwhole : dropLineComments false (code ++ []) = code ++ dropLineComments false [] :=
    dropLineComments_append hcode fun _ hhead => by cases hhead
  rwa [dropLineComments, List.append_nil] at hwhole

theorem dropBlocks_of_code {code : List Char} (hcode : ¬ openMark <:+: code) : dropBlocks code = code := by
  have hwhole : dropBlocks (code ++ []) = code ++ dropBlocks [] :=
    dropBlocks_append hcode fun _ hhead => by cases hhead
  rwa [dropBlocks, List.append_nil] at hwhole

theorem dropWhile_isLead {text : List Char} (htext : ∀ c ∈ text.head?, isLead c = false) :
    text.dropWhile isLead = text := by
  cases text with
  | nil => rfl
  | cons c text => exact List.dropWhile_cons_of_neg (by rw [htext c rfl]; exact Bool.false_ne_true)

/-! ### Lines that start a command -/

/-- A line of the text starts a command. -/
def HasCommand (text : List Char) : Prop := ∃ line ∈ text.splitOn '\n', startsCommand line = true

instance (text : List Char) : Decidable (HasCommand text) :=
  inferInstanceAs (Decidable (∃ line ∈ text.splitOn '\n', startsCommand line = true))

theorem isBlank_of_mem_commandStart {start : String} (hstart : start ∈ commandStarts) :
    start.toList ≠ [] ∧ ∀ c ∈ start.toList, Text.isBlank c = false := by
  have hall : (commandStarts.all fun start => !start.toList.isEmpty && start.toList.all (!Text.isBlank ·)) = true := rfl
  have hword := List.all_eq_true.1 hall start hstart
  rw [Bool.and_eq_true, List.all_eq_true] at hword
  exact ⟨by simpa using hword.1, fun c hc => by simpa using hword.2 c hc⟩

theorem startsCommand_iff {line : List Char} :
    startsCommand line = true ↔ ∃ blanks start rest, start ∈ commandStarts ∧
      line = blanks ++ start.toList ++ rest ∧ ∀ c ∈ blanks, Text.isBlank c = true := by
  rw [startsCommand, List.any_eq_true]
  simp only [Text.startsWith_iff]
  constructor
  · rintro ⟨start, hstart, rest, hrest⟩
    obtain ⟨before, after, hline, hbefore, -⟩ := Text.exists_blanks_around line
    refine ⟨before, start, rest ++ after, hstart, ?_, hbefore⟩
    conv_lhs => rw [hline, ← hrest]
    simp only [List.append_assoc]
  · rintro ⟨blanks, start, rest, hstart, rfl, hblanks⟩
    refine ⟨start, hstart, ?_⟩
    obtain ⟨hne, hletters⟩ := isBlank_of_mem_commandStart hstart
    have hfirst : ∀ c ∈ (start.toList ++ rest).head?, Text.isBlank c = false := by
      intro c hc
      rw [List.head?_append_of_ne_nil _ hne] at hc
      exact hletters c (List.mem_of_mem_head? hc)
    obtain ⟨after, hafter, hblank⟩ := Text.exists_blanks_after (start.toList ++ rest)
    rw [Text.strip, List.append_assoc, Text.stripLeft_append_of_blanks hblanks, Text.stripLeft_of_letter hfirst]
    generalize Text.stripRight (start.toList ++ rest) = trimmed at hafter ⊢
    rcases List.prefix_or_prefix_of_prefix (List.prefix_append start.toList rest) ⟨after, hafter.symm⟩ with
      hbegins | ⟨lost, hlost⟩
    · exact hbegins
    · -- Nothing of the beginning is lost at the end, since it has no blanks in it.
      rw [← hlost, List.append_assoc, List.append_cancel_left_eq] at hafter
      cases lost with
      | nil => exact ⟨[], by rw [List.append_nil, ← hlost, List.append_nil]⟩
      | cons c lost =>
          have hc : Text.isBlank c = false := hletters c (by rw [← hlost]; simp)
          rw [hblank c (by rw [← hafter]; simp)] at hc
          cases hc

theorem hasCommand_iff {text : List Char} :
    HasCommand text ↔ ∃ before blanks start rest, start ∈ commandStarts ∧
      text = before ++ blanks ++ start.toList ++ rest ∧ (∀ c ∈ before.getLast?, c = '\n') ∧
      ∀ c ∈ blanks, Text.isBlank c = true := by
  simp only [HasCommand, Text.mem_splitOn_iff, startsCommand_iff]
  constructor
  · rintro ⟨line, ⟨-, before, after, rfl, hbefore, -⟩, blanks, start, rest, hstart, rfl, hblanks⟩
    exact ⟨before, blanks, start, rest ++ after, hstart, by simp only [List.append_assoc], hbefore, hblanks⟩
  · rintro ⟨before, blanks, start, rest, hstart, rfl, hbefore, hblanks⟩
    -- The line begins after the last line feed among the blanks and ends before the next one.
    have hletters := (isBlank_of_mem_commandStart hstart).2
    have hsplit : blanks.rdropWhile (· ≠ '\n') ++ blanks.rtakeWhile (· ≠ '\n') = blanks :=
      List.rdropWhile_append_rtakeWhile
    refine ⟨blanks.rtakeWhile (· ≠ '\n') ++ start.toList ++ rest.takeWhile (· ≠ '\n'),
      ⟨?_, before ++ blanks.rdropWhile (· ≠ '\n'), rest.dropWhile (· ≠ '\n'), ?_, ?_, ?_⟩,
      blanks.rtakeWhile (· ≠ '\n'), start, rest.takeWhile (· ≠ '\n'), hstart, rfl, ?_⟩
    · simp only [List.mem_append, not_or]
      refine ⟨⟨fun hmem => ?_, fun hmem => ?_⟩, fun hmem => ?_⟩
      · simpa using List.mem_rtakeWhile_imp hmem
      · exact absurd (hletters '\n' hmem) (by decide)
      · simpa using List.mem_takeWhile_imp hmem
    · conv_lhs => rw [← hsplit, ← List.takeWhile_append_dropWhile (p := (· ≠ '\n')) (l := rest)]
      simp only [List.append_assoc]
    · intro c hc
      by_cases hnil : blanks.rdropWhile (· ≠ '\n') = []
      · rw [hnil, List.append_nil] at hc
        exact hbefore c hc
      · rw [List.getLast?_append_of_ne_nil _ hnil, List.getLast?_eq_getLast_of_ne_nil hnil] at hc
        have hlast := List.rdropWhile_last_not (· ≠ '\n') blanks hnil
        cases hc
        simpa using hlast
    · intro c hc
      have hfirst := List.head?_dropWhile_not (fun c : Char => decide (c ≠ '\n')) rest
      rw [hc] at hfirst
      simpa using hfirst
    · intro c hc
      exact hblanks c (hsplit ▸ List.mem_append_right _ hc)

theorem HasCommand.append {text : List Char} (htext : HasCommand text) (rest : List Char) :
    HasCommand (text ++ rest) := by
  obtain ⟨before, blanks, start, after, hstart, rfl, hbefore, hblanks⟩ := hasCommand_iff.1 htext
  exact hasCommand_iff.2
    ⟨before, blanks, start, after ++ rest, hstart, by simp only [List.append_assoc], hbefore, hblanks⟩

theorem HasCommand.after_blanks {text front : List Char} (htext : HasCommand text)
    (hfront : ∀ c ∈ front, Text.isBlank c = true) : HasCommand (front ++ text) := by
  obtain ⟨before, blanks, start, after, hstart, rfl, hbefore, hblanks⟩ := hasCommand_iff.1 htext
  rw [hasCommand_iff]
  by_cases hnil : before = []
  · have htext : front ++ (before ++ blanks ++ start.toList ++ after) =
        [] ++ (front ++ blanks) ++ start.toList ++ after := by
      simp only [hnil, List.append_assoc, List.nil_append]
    exact ⟨[], front ++ blanks, start, after, hstart, htext, (fun _ hc => by cases hc),
      List.forall_mem_append.2 ⟨hfront, hblanks⟩⟩
  · refine ⟨front ++ before, blanks, start, after, hstart, by simp only [List.append_assoc], ?_, hblanks⟩
    rwa [List.getLast?_append_of_ne_nil _ hnil]

theorem HasCommand.of_strip {text : List Char} (hstrip : HasCommand (Text.strip text)) : HasCommand text := by
  obtain ⟨before, after, htext, hbefore, -⟩ := Text.exists_blanks_around text
  rw [htext, List.append_assoc]
  exact (hstrip.append after).after_blanks hbefore

theorem not_hasCommand_beforeCommand (text : List Char) : ¬ HasCommand (beforeCommand text) := by
  rintro ⟨line, hline, hstarts⟩
  rw [beforeCommand_eq] at hline
  by_cases hnil : (text.splitOn '\n').takeWhile (fun line => !startsCommand line) = []
  · rw [hnil, List.intercalate_nil, List.splitOn_nil, List.mem_singleton] at hline
    subst hline
    exact absurd hstarts (by decide)
  · rw [List.splitOn_intercalate '\n' _ hnil] at hline
    · have hfree := List.mem_takeWhile_imp hline
      rw [hstarts] at hfree
      cases hfree
    · intro part hpart
      exact Text.notMem_of_mem_splitOn ((List.takeWhile_sublist _).mem hpart)

/-- A text is all before its first command, or the command begins it or the next line. -/
theorem beforeCommand_cases (text : List Char) :
    beforeCommand text = text ∨ ∃ before blanks start rest, start ∈ commandStarts ∧
      text = before ++ blanks ++ start.toList ++ rest ∧ (∀ c ∈ blanks, Text.isBlank c = true) ∧
      (before = [] ∨ before = beforeCommand text ++ ['\n']) := by
  have hlines : (text.splitOn '\n').takeWhile (fun line => !startsCommand line) ++
      (text.splitOn '\n').dropWhile (fun line => !startsCommand line) = text.splitOn '\n' :=
    List.takeWhile_append_dropWhile
  have htext : ['\n'].intercalate (text.splitOn '\n') = text := List.intercalate_splitOn '\n'
  rw [← hlines] at htext
  rw [beforeCommand_eq]
  have hfirst := List.head?_dropWhile_not (fun line => !startsCommand line) (text.splitOn '\n')
  generalize (text.splitOn '\n').takeWhile (fun line => !startsCommand line) = free at htext ⊢
  generalize (text.splitOn '\n').dropWhile (fun line => !startsCommand line) = others at htext hfirst
  cases others with
  | nil => exact .inl (by rw [← htext, List.append_nil])
  | cons line others =>
      right
      have hline : startsCommand line = true := by simpa using hfirst
      obtain ⟨blanks, start, rest, hstart, rfl, hblanks⟩ := startsCommand_iff.1 hline
      obtain ⟨after, hafter⟩ : ∃ after, ['\n'].intercalate ((blanks ++ start.toList ++ rest) :: others) =
          blanks ++ start.toList ++ rest ++ after := by
        cases others with
        | nil => exact ⟨[], by rw [List.intercalate_singleton, List.append_nil]⟩
        | cons other others => exact ⟨_, by rw [List.intercalate_cons_cons, List.append_assoc _ ['\n']]⟩
      by_cases hfree : free = []
      · refine ⟨[], blanks, start, rest ++ after, hstart, ?_, hblanks, .inl rfl⟩
        rw [← htext, hfree, List.nil_append, hafter]
        simp only [List.append_assoc, List.nil_append]
      · refine ⟨_, blanks, start, rest ++ after, hstart, ?_, hblanks, .inr rfl⟩
        rw [← htext, Text.intercalate_append _ hfree (by simp), hafter]
        simp only [List.append_assoc]

theorem beforeCommand_of_not_hasCommand {text : List Char} (htext : ¬ HasCommand text) :
    beforeCommand text = text := by
  have hlines : (text.splitOn '\n').takeWhile (fun line => !startsCommand line) = text.splitOn '\n' := by
    rw [List.takeWhile_eq_self_iff]
    intro line hline
    rw [Bool.not_eq_true', Bool.eq_false_iff]
    exact fun hstarts => htext ⟨line, hline, hstarts⟩
  rw [beforeCommand_eq, hlines, List.intercalate_splitOn]

/-! ### Clean texts -/

/-- A text without comments and commands is only trimmed. -/
theorem clean_of_code {text : List Char} (hlead : ∀ c ∈ text.head?, isLead c = false)
    (hline : ¬ lineMark <:+: text) (hopen : ¬ openMark <:+: text) (hcommand : ¬ HasCommand text) :
    clean text = Text.strip text := by
  obtain ⟨before, after, htext, -⟩ := Text.exists_blanks_around text
  have hwithin : Text.strip text <:+: text := ⟨before, after, htext.symm⟩
  rw [clean, dropWhile_isLead hlead, dropLineComments_of_code fun hmark => hline (hmark.trans hwithin),
    dropBlocks_of_code fun hmark => hopen (hmark.trans hwithin),
    beforeCommand_of_not_hasCommand fun hstrip => hcommand hstrip.of_strip, Text.strip_strip]

/-- Cleaning a text deletes characters, leaves no blank at an end and no line that starts a command. If there is
no comment, no command and nothing before the first word, only blanks at the ends are deleted. -/
theorem clean_deletes_without_commands (text : String) :
    ∃ cleaned, cleanValue (.str text) = .ok cleaned ∧ cleaned.toList.Sublist text.toList ∧
      (∀ c ∈ cleaned.toList.head?, Text.isBlank c = false) ∧
      (∀ c ∈ cleaned.toList.getLast?, Text.isBlank c = false) ∧
      (∀ line ∈ cleaned.toList.splitOn '\n', ∀ start ∈ commandStarts, ¬ start.toList <+: Text.strip line) ∧
      ((∀ c ∈ text.toList.head?, isLead c = false) → ¬ lineMark <:+: text.toList → ¬ openMark <:+: text.toList →
        ¬ HasCommand text.toList → cleaned.toList = Text.strip text.toList) := by
  have hcleaned : cleanValue (.str text) = .ok (String.ofList (clean text.toList)) := by
    rw [cleanValue]
    split
    · rename_i hempty
      have htext : text = "" := by simpa [Value.truthy] using hempty
      rw [htext, String.toList_empty, List.sublist_nil.1 (clean_sublist [])]
    · rfl
  refine ⟨_, hcleaned, ?_⟩
  rw [String.toList_ofList]
  refine ⟨clean_sublist _, fun c => Text.isBlank_of_mem_head?_strip, fun c => Text.isBlank_of_mem_getLast?_strip, ?_,
    clean_of_code⟩
  intro line hline start hstart hbegins
  have hcommand : HasCommand (clean text.toList) :=
    ⟨line, hline, List.any_eq_true.2 ⟨start, hstart, Text.startsWith_iff.2 hbegins⟩⟩
  exact not_hasCommand_beforeCommand _ (HasCommand.of_strip hcommand)

end ProofDump.Ast
