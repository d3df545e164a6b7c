import ProofDump.Proofs.Ast.Comments

/-!
# Commented texts

A commented text is code with comments in it, set off by blanks. Its code is what cleaning leaves if every block
comment stays closed. Otherwise one that lost its end goes on to a mark that closes a later one, and the code
between them is lost with it, or its first character stays. What is left is found from comment to comment
(`remains`).
-/

namespace ProofDump.Ast

/-! ### Code and comments -/

/-- No mark of a comment is in the text. -/
structure IsCode (text : List Char) : Prop where
  unlined : ¬ lineMark <:+: text
  unopened : ¬ openMark <:+: text
  unclosed : ¬ closeMark <:+: text

instance (text : List Char) : Decidable (IsCode text) :=
  decidable_of_iff (¬ lineMark <:+: text ∧ ¬ openMark <:+: text ∧ ¬ closeMark <:+: text)
    ⟨fun h => ⟨h.1, h.2.1, h.2.2⟩, fun h => ⟨h.unlined, h.unopened, h.unclosed⟩⟩

/-- A comment and the code from there to the next one. -/
structure Passage where
  comment : Comment
  code : List Char
deriving DecidableEq

namespace Passage

def text (passage : Passage) : List Char := passage.comment.text ++ passage.code

/-- The passage can stand between code and other passages: its comment is whole, blanks set it off from the code
before and after it, and a line comment goes on to the end of its line. -/
structure Fits (passage : Passage) (before : List Char) (rest : List Passage) : Prop where
  blankBefore : ∀ c ∈ before.getLast?, Text.isBlank c = true
  whole : passage.comment.IsWhole
  isCode : IsCode passage.code
  blankAfter : ∀ c ∈ passage.code.head?, Text.isBlank c = true
  endOfLine : passage.comment.isLine = true → passage.code.head? = some '\n' ∨ passage.code = [] ∧ rest = []

instance (passage : Passage) (before : List Char) (rest : List Passage) : Decidable (passage.Fits before rest) :=
  decidable_of_iff (before.getLast?.all Text.isBlank = true ∧ passage.comment.IsWhole ∧
      IsCode passage.code ∧ passage.code.head?.all Text.isBlank = true ∧
      (passage.comment.isLine = true → passage.code.head? = some '\n' ∨ passage.code = [] ∧ rest = []))
    ⟨fun h => ⟨(Option.all_eq_true _ _).1 h.1, h.2.1, h.2.2.1, (Option.all_eq_true _ _).1 h.2.2.2.1, h.2.2.2.2⟩,
      fun h => ⟨(Option.all_eq_true _ _).2 h.blankBefore, h.whole, h.isCode, (Option.all_eq_true _ _).2 h.blankAfter,
        h.endOfLine⟩⟩

end Passage

/-- The passages can stand one after the other, after code. -/
def Follow : List Char → List Passage → Prop
  | _, [] => True
  | before, passage :: rest => passage.Fits before rest ∧ Follow passage.code rest

instance decidableFollow : (before : List Char) → (passages : List Passage) → Decidable (Follow before passages)
  | _, [] => inferInstanceAs (Decidable True)
  | before, passage :: rest =>
    have := decidableFollow passage.code rest
    inferInstanceAs (Decidable (passage.Fits before rest ∧ Follow passage.code rest))

namespace Follow

variable {before : List Char} {done later : List Passage}

/-- Code that something follows ends with a blank. -/
theorem head?_ne (hfollow : Follow before later) {c : Char} (hc : Text.isBlank c = false)
    {rest : List Char} (hrest : later = [] → rest = []) (hlast : before.getLast? = some c) (d : Char) :
    rest.head? ≠ some d := by
  cases later with
  | nil =>
      rw [hrest rfl]
      exact fun hhead => by cases hhead
  | cons passage later =>
      rw [hfollow.1.blankBefore c hlast] at hc
      cases hc

theorem uncomment_before (hfollow : Follow before later) (hcode : IsCode before) :
    uncomment (before ++ later.flatMap Passage.text) = before ++ uncomment (later.flatMap Passage.text) := by
  have hlines (hnil : later = []) : later.flatMap Passage.text = [] := by
    rw [hnil]
    rfl
  have hblocks (hnil : later = []) : dropLineComments false (later.flatMap Passage.text) = [] := by
    rw [hlines hnil]
    rfl
  rw [uncomment, dropLineComments_append hcode.unlined fun hlast => hfollow.head?_ne (by decide) hlines hlast '-',
    dropBlocks_append hcode.unopened fun hlast => hfollow.head?_ne (by decide) hblocks hlast '-', uncomment]

/-- A block comment goes on over code. A line comment in it ends with a line of the code. -/
theorem afterBlock?_before (hfollow : Follow before later) (hcode : IsCode before) :
    afterBlock? (dropLineComments true (before ++ later.flatMap Passage.text)) =
      afterBlock? (dropLineComments (!decide ('\n' ∈ before)) (later.flatMap Passage.text)) := by
  by_cases hnewline : '\n' ∈ before
  · obtain ⟨front, back, rfl, hfront⟩ := List.eq_append_cons_of_mem hnewline
    have hlast {c : Char} (hc : back.getLast? = some c) : (front ++ '\n' :: back).getLast? = some c := by
      rw [List.getLast?_append, getLast?_of_cons hc]
      rfl
    have hback : '\n' :: back <:+: front ++ '\n' :: back := (List.suffix_append _ _).isInfix
    have hlines : dropLineComments false (back ++ later.flatMap Passage.text) =
        back ++ dropLineComments false (later.flatMap Passage.text) := by
      refine dropLineComments_append (fun hmark => hcode.unlined ((List.infix_cons hmark).trans hback)) fun hdash => ?_
      refine hfollow.head?_ne (by decide) (fun hnil => ?_) (hlast hdash) '-'
      rw [hnil]
      rfl
    have hdropped : dropLineComments true (front ++ '\n' :: back ++ later.flatMap Passage.text) =
        '\n' :: back ++ dropLineComments false (later.flatMap Passage.text) := by
      rw [List.append_assoc, List.cons_append, dropLineComments_true_newline hfront, hlines, List.cons_append]
    rw [hdropped, decide_eq_true hnewline, Bool.not_true]
    refine afterBlock?_append (fun hmark => hcode.unclosed (hmark.trans hback)) fun hdash => ?_
    refine hfollow.head?_ne (by decide) (fun hnil => ?_) ((List.getLast?_append_cons _ _ _).trans hdash) '/'
    rw [hnil]
    rfl
  · rw [dropLineComments_within hnewline, decide_eq_false hnewline, Bool.not_false]

/-- A line comment goes on to the end of the line or of the text. -/
theorem endOfLine {passage : Passage} (hfollow : Follow before (passage :: later))
    (hline : passage.comment.isLine = true) {c : Char}
    (hc : c ∈ (passage.code ++ later.flatMap Passage.text).head?) : c = '\n' := by
  rcases hfollow.1.endOfLine hline with hnewline | ⟨hnil, hlast⟩
  · rw [List.head?_append, hnewline] at hc
    cases hc
    rfl
  · rw [hnil, hlast] at hc
    cases hc

theorem exists_tail (hfollow : Follow before (done ++ later)) : ∃ code, Follow code later := by
  induction done generalizing before with
  | nil => exact ⟨before, hfollow⟩
  | cons passage done ih => exact ih hfollow.2

theorem isBlank_of_mem_head? (hfollow : Follow before later) {c : Char}
    (hc : c ∈ (later.flatMap Passage.code).head?) : Text.isBlank c = true := by
  induction later generalizing before with
  | nil => cases hc
  | cons passage later ih =>
      rw [List.flatMap_cons] at hc
      by_cases hnil : passage.code = []
      · rw [hnil, List.nil_append] at hc
        exact ih hfollow.2 hc
      · rw [List.head?_append_of_ne_nil _ hnil] at hc
        exact hfollow.1.blankAfter c hc

end Follow

/-! ### What is left of comments -/

/-- What is left after the code that is kept. -/
inductive Residue where
  | nothing
  /-- The first character of a block comment that nothing closes. -/
  | opening
  /-- A text from behind the opening mark of a block comment, which closes another one. -/
  | ending (text : List Char)
deriving DecidableEq

/-- The text begins with what is left, or is it. -/
def Residue.IsLeft : Residue → List Char → Prop
  | nothing, text => text = []
  | opening, text => text.head? = some '/'
  | ending behind, text => text = uncomment behind

/-- Where a text is read: in code, or in a block comment that lost its end. There it is in a line comment too
unless it is `fresh`. -/
inductive Mode where
  | code
  | lost (fresh : Bool)
deriving DecidableEq

/-- The code that is kept of passages, and what is left after it. -/
def remains : Mode → List Passage → List Char × Residue
  | .code, [] => ([], .nothing)
  | .lost _, [] => ([], .opening)
  | .code, passage :: rest =>
    if passage.comment.StaysClosed then (passage.code ++ (remains .code rest).1, (remains .code rest).2)
    else if passage.comment.LosesOpening then ([], .opening)
    else remains (.lost ('\n' ∈ passage.code)) rest
  | .lost fresh, passage :: rest =>
    match passage.comment.behindMark? fresh with
    | none => remains (.lost ('\n' ∈ passage.code)) rest
    | some [] => (passage.code ++ (remains .code rest).1, (remains .code rest).2)
    | some behind => ([], .ending (behind ++ passage.code ++ rest.flatMap Passage.text))

/-- The text is what is kept and left. -/
def IsRead (left : List Char × Residue) (text : List Char) : Prop :=
  ∃ rest, text = left.1 ++ rest ∧ left.2.IsLeft rest

/-- What is kept and left behind the end of a block comment, if it has one. -/
def IsReadBehind (left : List Char × Residue) : Option (List Char) → Prop
  | some after => IsRead left (dropBlocks after)
  | none => left = ([], .opening)

theorem IsRead.append {left : List Char × Residue} {text : List Char} (hread : IsRead left text) (code : List Char) :
    IsRead (code ++ left.1, left.2) (code ++ text) := by
  obtain ⟨rest, rfl, hrest⟩ := hread
  exact ⟨rest, (List.append_assoc _ _ _).symm, hrest⟩

section Step

variable {before : List Char} {passage : Passage} {later : List Passage} (hfollow : Follow before (passage :: later))
  (hkept : IsRead (remains .code later) (uncomment (later.flatMap Passage.text)))
  (hlost : IsReadBehind (remains (.lost ('\n' ∈ passage.code)) later)
    (afterBlock? (dropLineComments true (passage.code ++ later.flatMap Passage.text))))

include hfollow hkept

theorem isRead_code_append : IsRead (passage.code ++ (remains .code later).1, (remains .code later).2)
    (uncomment (passage.code ++ later.flatMap Passage.text)) := by
  rw [hfollow.2.uncomment_before hfollow.1.isCode]
  exact hkept.append passage.code

include hlost

theorem remains_code_step :
    IsRead (remains .code (passage :: later)) (uncomment ((passage :: later).flatMap Passage.text)) := by
  rw [List.flatMap_cons, Passage.text, List.append_assoc, remains]
  split
  · rename_i hclosed
    rw [Comment.uncomment_closed hfollow.1.whole hclosed fun hline c => hfollow.endOfLine hline]
    exact isRead_code_append hfollow hkept
  · rename_i hclosed
    split
    · rename_i hopening
      obtain ⟨after, hafter⟩ := Comment.exists_uncomment_opening hopening (passage.code ++ later.flatMap Passage.text)
      exact ⟨_, rfl, congrArg List.head? hafter⟩
    · rename_i hopening
      have hleft := Comment.uncomment_lost hfollow.1.whole hclosed hopening
        (passage.code ++ later.flatMap Passage.text)
      cases hafter : afterBlock? (dropLineComments true (passage.code ++ later.flatMap Passage.text)) with
      | some after =>
          simp only [hafter] at hlost hleft
          rw [hleft]
          exact hlost
      | none =>
          rw [hafter] at hlost hleft
          rw [show remains _ later = ([], .opening) from hlost]
          exact ⟨_, rfl, hleft⟩

theorem remains_lost_step (hcode : IsCode before) :
    IsReadBehind (remains (.lost ('\n' ∈ before)) (passage :: later))
      (afterBlock? (dropLineComments true (before ++ (passage :: later).flatMap Passage.text))) := by
  rw [hfollow.afterBlock?_before hcode, List.flatMap_cons, Passage.text, List.append_assoc,
    Comment.afterBlock?_text hfollow.1.whole, remains]
  cases passage.comment.behindMark? (decide ('\n' ∈ before)) with
  | none => exact hlost
  | some behind =>
      cases behind with
      | nil => exact isRead_code_append hfollow hkept
      | cons c behind =>
          refine ⟨_, rfl, ?_⟩
          rw [Residue.IsLeft, List.append_assoc]
          rfl

end Step

/-- Both modes at once: a block comment that loses its end leads from code to the other mode, and a mark that closes
it leads back. -/
theorem remains_isRead {before : List Char} {passages : List Passage} (hfollow : Follow before passages)
    (hcode : IsCode before) :
    IsRead (remains .code passages) (uncomment (passages.flatMap Passage.text)) ∧
      IsReadBehind (remains (.lost ('\n' ∈ before)) passages)
        (afterBlock? (dropLineComments true (before ++ passages.flatMap Passage.text))) := by
  induction passages generalizing before with
  | nil =>
      refine ⟨⟨[], by simp [uncomment, dropLineComments, dropBlocks, remains], rfl⟩, ?_⟩
      rw [hfollow.afterBlock?_before hcode]
      exact rfl
  | cons passage later ih =>
      obtain ⟨hkept, hlost⟩ := ih hfollow.2 hfollow.1.isCode
      exact ⟨remains_code_step hfollow hkept hlost, remains_lost_step hfollow hkept hlost hcode⟩

/-- Comments that stay closed leave the code after them. -/
theorem remains_append {done : List Passage} (hclosed : ∀ passage ∈ done, passage.comment.StaysClosed)
    (later : List Passage) :
    remains .code (done ++ later) = (done.flatMap Passage.code ++ (remains .code later).1, (remains .code later).2) := by
  induction done with
  | nil => rfl
  | cons passage done ih =>
      obtain ⟨hfirst, hdone⟩ := List.forall_mem_cons.1 hclosed
      rw [List.cons_append, remains, if_pos hfirst, ih hdone, List.flatMap_cons, List.append_assoc]

theorem remains_lost_of_lines {fresh : Bool} {later : List Passage}
    (hlines : ∀ other ∈ later, other.comment.isLine = true) : remains (.lost fresh) later = ([], .opening) := by
  induction later generalizing fresh with
  | nil => rfl
  | cons passage later ih =>
      obtain ⟨hfirst, hlater⟩ := List.forall_mem_cons.1 hlines
      obtain ⟨comment, code⟩ := passage
      cases comment with
      | block body => cases hfirst
      | line body =>
          rw [remains]
          exact ih hlater

/-- Line comments close no block comment. -/
theorem remains_of_lines {passage : Passage} {later : List Passage} (hopen : ¬ passage.comment.StaysClosed)
    (hlines : ∀ other ∈ later, other.comment.isLine = true) :
    remains .code (passage :: later) = ([], .opening) := by
  rw [remains, if_neg hopen, remains_lost_of_lines hlines, ite_self]

/-- Code with comments in it, which begins with a word. -/
structure Commented where
  first : List Char
  passages : List Passage
  isCode : IsCode first
  follow : Follow first passages
  starts : ∃ c ∈ first.head?, isLead c = false

namespace Commented

def text (commented : Commented) : List Char := commented.first ++ commented.passages.flatMap Passage.text

def code (commented : Commented) : List Char := commented.first ++ commented.passages.flatMap Passage.code

variable (commented : Commented)

theorem clean_text : clean commented.text = Text.strip (beforeCommand (uncomment (Text.strip commented.text))) := by
  have hlead : ∀ c ∈ commented.text.head?, isLead c = false := by
    obtain ⟨c, hc, hlead⟩ := commented.starts
    intro d hd
    rw [text, List.head?_append, hc] at hd
    cases hd
    exact hlead
  rw [clean, dropWhile_isLead hlead, uncomment]

variable {commented}

theorem exists_uncomment (commented : Commented) :
    ∃ rest, uncomment commented.text = commented.first ++ (remains .code commented.passages).1 ++ rest ∧
      (remains .code commented.passages).2.IsLeft rest := by
  obtain ⟨⟨rest, hrest, hleft⟩, -⟩ := remains_isRead commented.follow commented.isCode
  refine ⟨rest, ?_, hleft⟩
  rw [text, commented.follow.uncomment_before commented.isCode, hrest, List.append_assoc]

end Commented

/-! ### Clean texts with comments -/

theorem prefix_or_mem_of_concat {front before after : List Char} {c : Char}
    (hbegins : front ++ [c] <+: before ++ after) : front ++ [c] <+: before ∨ c ∈ after := by
  rcases List.prefix_or_prefix_of_prefix hbegins (List.prefix_append before after) with hwithin | ⟨more, hmore⟩
  · exact .inl hwithin
  · rcases more.eq_nil_or_concat with rfl | ⟨others, last, rfl⟩
    · exact .inl ⟨[], by rw [← hmore, List.append_nil, List.append_nil]⟩
    · have hlast : last = c := by simpa using congrArg List.getLast? hmore
      rw [← hmore, List.prefix_append_right_inj] at hbegins
      exact .inr (hbegins.mem (by simp [hlast]))

/-- A beginning that ends with a slash is found again between the blanks around a text. -/
theorem prefix_of_blanks_around {front before inner after : List Char}
    (hfront : ∃ c ∈ front.head?, Text.isBlank c = false) (hbefore : ∀ c ∈ before, Text.isBlank c = true)
    (hafter : ∀ c ∈ after, Text.isBlank c = true) (hbegins : front ++ ['/'] <+: before ++ inner ++ after) :
    front ++ ['/'] <+: inner := by
  have hnil : before = [] := by
    cases before with
    | nil => rfl
    | cons d before =>
        obtain ⟨c, hc, hletter⟩ := hfront
        obtain ⟨rest, hrest⟩ := hbegins
        have hhead := congrArg List.head? hrest
        rw [List.append_assoc, List.head?_append, hc] at hhead
        cases hhead
        rw [hbefore _ List.mem_cons_self] at hletter
        cases hletter
  rw [hnil, List.nil_append] at hbegins
  exact (prefix_or_mem_of_concat hbegins).resolve_right fun hslash => absurd (hafter '/' hslash) (by decide)

/-- A beginning without a command is all before the first command, with the slash after it. -/
theorem prefix_beforeCommand {front text : List Char} (hfront : ¬ HasCommand front)
    (hbegins : front ++ ['/'] <+: text) : front ++ ['/'] <+: beforeCommand text := by
  rcases beforeCommand_cases text with hwhole | ⟨before, blanks, start, rest, hstart, htext, hblanks, hbefore⟩
  · rwa [hwhole]
  · have hslash : '/' ∉ blanks ++ start.toList := by
      rw [List.mem_append, not_or]
      refine ⟨fun hmem => absurd (hblanks '/' hmem) (by decide), ?_⟩
      have hall : (commandStarts.all fun start => !start.toList.contains '/') = true := rfl
      simpa using List.all_eq_true.1 hall start hstart
    rw [htext] at hbegins
    -- The beginning ends before the command, since with all of the command in it, it would have one.
    have hends : front ++ ['/'] <+: before ++ blanks ++ start.toList := by
      rcases List.prefix_or_prefix_of_prefix hbegins (List.prefix_append _ rest) with hends | hcommand
      · exact hends
      · rcases List.prefix_concat_iff.1 hcommand with hsame | ⟨more, hmore⟩
        · exact ⟨[], by rw [hsame, List.append_nil]⟩
        · refine absurd (hasCommand_iff.2 ⟨before, blanks, start, more, hstart, hmore.symm, ?_, hblanks⟩) hfront
          rcases hbefore with rfl | hbefore
          · exact fun _ hc => by cases hc
          · rw [hbefore, List.getLast?_concat]
            rintro c ⟨⟩
            rfl
    rw [List.append_assoc] at hends
    have hbeginning := (prefix_or_mem_of_concat hends).resolve_right hslash
    rcases hbefore with rfl | hbefore
    · simp at hbeginning
    · rw [hbefore] at hbeginning
      exact (prefix_or_mem_of_concat hbeginning).resolve_right (by decide)

namespace Commented

variable {commented : Commented}

theorem clean_text_of_uncomment (hcommands : ¬ HasCommand (uncomment commented.text)) :
    clean commented.text = Text.strip (uncomment commented.text) := by
  obtain ⟨before, after, huncomment, hbefore, hafter⟩ := uncomment_eq_strip commented.text
  have hkept : ¬ HasCommand (uncomment (Text.strip commented.text)) := by
    intro hcommand
    rw [huncomment, List.append_assoc] at hcommands
    exact hcommands ((hcommand.append after).after_blanks hbefore)
  rw [clean_text, beforeCommand_of_not_hasCommand hkept, huncomment, Text.strip_append_blanks hbefore hafter]

theorem uncomment_text (hclosed : ∀ passage ∈ commented.passages, passage.comment.StaysClosed) :
    uncomment commented.text = commented.code := by
  have hremains := remains_append hclosed []
  rw [List.append_nil] at hremains
  obtain ⟨rest, hrest, hleft⟩ := exists_uncomment commented
  rw [hremains] at hrest hleft
  obtain rfl : rest = [] := hleft
  rw [hrest, code]
  simp [remains]

theorem prefix_clean_text {done later : List Passage} (hcommands : ¬ HasCommand commented.code)
    (hpassages : commented.passages = done ++ later) (hclosed : ∀ earlier ∈ done, earlier.comment.StaysClosed)
    (hopen : remains .code later = ([], .opening))
    (hletter : ∃ c ∈ commented.first.head?, Text.isBlank c = false) :
    commented.first ++ done.flatMap Passage.code ++ ['/'] <+: clean commented.text := by
  obtain ⟨rest, hrest, hleft⟩ := exists_uncomment commented
  rw [hpassages, remains_append hclosed, hopen] at hrest hleft
  obtain ⟨rest, rfl⟩ := List.head?_eq_some_iff.1 hleft
  rw [List.append_nil] at hrest
  have hfront : ∃ c ∈ (commented.first ++ done.flatMap Passage.code).head?, Text.isBlank c = false := by
    obtain ⟨c, hc, hletter⟩ := hletter
    exact ⟨c, by rw [List.head?_append, hc]; rfl, hletter⟩
  have hfree : ¬ HasCommand (commented.first ++ done.flatMap Passage.code) := by
    intro hcommand
    refine hcommands ?_
    rw [code, hpassages, List.flatMap_append, ← List.append_assoc]
    exact hcommand.append _
  have huncomment : commented.first ++ done.flatMap Passage.code ++ ['/'] <+: uncomment commented.text :=
    ⟨rest, by rw [hrest, List.append_assoc _ ['/'], List.singleton_append]⟩
  obtain ⟨before, after, hblanks, hbefore, hafter⟩ := uncomment_eq_strip commented.text
  rw [hblanks] at huncomment
  have hkept := prefix_beforeCommand hfree (prefix_of_blanks_around hfront hbefore hafter huncomment)
  rw [clean_text]
  generalize beforeCommand (uncomment (Text.strip commented.text)) = kept at hkept ⊢
  obtain ⟨before, after, hblanks, hbefore, hafter⟩ := Text.exists_blanks_around kept
  rw [hblanks] at hkept
  exact prefix_of_blanks_around hfront hbefore hafter hkept

theorem clean_text_ne {done later : List Passage} (hpassages : commented.passages = done ++ later)
    (hletter : ∃ c ∈ commented.first.head?, Text.isBlank c = false)
    (hbegins : commented.first ++ done.flatMap Passage.code ++ ['/'] <+: clean commented.text) :
    clean commented.text ≠ Text.strip commented.code := by
  intro hclean
  have hfollow := commented.follow
  rw [hpassages] at hfollow
  obtain ⟨code, hlater⟩ := hfollow.exists_tail
  have hcode : commented.code = commented.first ++ done.flatMap Passage.code ++ later.flatMap Passage.code := by
    rw [Commented.code, hpassages, List.flatMap_append, List.append_assoc]
  have hfirst : ∀ c ∈ commented.code.head?, Text.isBlank c = false := by
    obtain ⟨c, hc, hletter⟩ := hletter
    intro d hd
    rw [Commented.code, List.head?_append, hc] at hd
    cases hd
    exact hletter
  obtain ⟨blanks, hblanks, -⟩ := Text.exists_blanks_after commented.code
  rw [hclean, Text.strip, Text.stripLeft_of_letter hfirst] at hbegins
  have hslash := hbegins.trans ⟨blanks, hblanks.symm⟩
  rw [hcode, List.prefix_append_right_inj] at hslash
  obtain ⟨rest, hrest⟩ := hslash
  have hblank := hlater.isBlank_of_mem_head? (c := '/') (by rw [← hrest]; rfl)
  exact absurd hblank (by decide)

end Commented

/-- Cleaning removes exactly the comments from a commented text if all its block comments stay closed when line
comments are dropped. In any case it leaves the code that is kept from comment to comment, and what is left of
comments after it. Where that is the first character of a comment, and no code was lost before it, what cleaning
leaves is not the code. -/
theorem clean_removes_closed_comments (commented : Commented) (hcommands : ¬ HasCommand commented.code) :
    ((∀ passage ∈ commented.passages, passage.comment.StaysClosed) →
      clean commented.text = Text.strip commented.code) ∧
    (∃ rest, uncomment commented.text = commented.first ++ (remains .code commented.passages).1 ++ rest ∧
      (remains .code commented.passages).2.IsLeft rest ∧
      (¬ HasCommand (uncomment commented.text) → clean commented.text = Text.strip (uncomment commented.text))) ∧
    ∀ done later, commented.passages = done ++ later → (∀ earlier ∈ done, earlier.comment.StaysClosed) →
      remains .code later = ([], .opening) → (∃ c ∈ commented.first.head?, Text.isBlank c = false) →
      commented.first ++ done.flatMap Passage.code ++ ['/'] <+: clean commented.text ∧
        clean commented.text ≠ Text.strip commented.code := by
  refine ⟨fun hclosed => ?_, ?_, ?_⟩
  · have huncomment := Commented.uncomment_text hclosed
    rw [← huncomment] at hcommands ⊢
    exact Commented.clean_text_of_uncomment hcommands
  · obtain ⟨rest, hrest, hleft⟩ := commented.exists_uncomment
    exact ⟨rest, hrest, hleft, Commented.clean_text_of_uncomment⟩
  · intro done later hpassages hclosed hopen hletter
    have hbegins := Commented.prefix_clean_text hcommands hpassages hclosed hopen hletter
    exact ⟨hbegins, Commented.clean_text_ne hpassages hletter hbegins⟩

/-- A block comment that loses its end, and another one that closes it. -/
def closedLater : Commented where
  first := "simp ".toList
  passages := [⟨.block " once -- or ".toList, " at h\n ".toList⟩, ⟨.block " twice ".toList, " at k".toList⟩]
  isCode := by decide
  follow := by decide
  starts := ⟨'s', rfl, by decide⟩

theorem clean_removes_closed_comments_simp :
    (∃ commented : Commented,
      commented.text = "simp -- not /- this\n  /- but -- these\n two -/ exact x".toList ∧
        clean commented.text = "simp \n   exact x".toList) ∧
    (∃ commented : Commented,
      commented.text = "simp /- once -- or -/ at h\n /- twice -/ at k".toList ∧
        clean commented.text = "simp  at k".toList) ∧
    ∃ commented : Commented,
      commented.text = "simp /- once -/ at h /- twice --/ -- or more".toList ∧
        "simp  at h /".toList <+: clean commented.text := by
  refine ⟨?_, ?_, ?_⟩
  · refine ⟨⟨"simp ".toList, [⟨.line " not /- this".toList, "\n  ".toList⟩,
      ⟨.block " but -- these\n two ".toList, " exact x".toList⟩], by decide, by decide, ⟨'s', rfl, by decide⟩⟩, rfl, ?_⟩
    exact (clean_removes_closed_comments _ (by decide)).1 (by decide)
  · have hremains : remains .code closedLater.passages = (" at k".toList, .nothing) := by decide
    obtain ⟨rest, hrest, hleft, hclean⟩ := (clean_removes_closed_comments closedLater (by decide)).2.1
    rw [hremains] at hrest hleft
    obtain rfl : rest = [] := hleft
    refine ⟨closedLater, rfl, ?_⟩
    rw [hclean (by rw [hrest]; decide), hrest]
    decide
  · have hclean := (clean_removes_closed_comments ⟨"simp ".toList, [⟨.block " once ".toList, " at h ".toList⟩,
      ⟨.block " twice -".toList, " ".toList⟩, ⟨.line " or more".toList, []⟩], by decide, by decide,
      ⟨'s', rfl, by decide⟩⟩ (by decide)).2.2 [_] _ rfl (by decide) (remains_of_lines (by decide) (by decide))
      ⟨'s', rfl, by decide⟩
    exact ⟨_, rfl, hclean.1⟩

/-- A mark of a line comment on the last line of a block comment. -/
theorem clean_keeps_open_comment : ∃ commented : Commented,
    commented.text = "exact f /- first -- not second -/ x".toList ∧ ¬ HasCommand commented.code ∧
      clean commented.text = "exact f /- first".toList ∧ Text.strip commented.code = "exact f  x".toList := by
  refine ⟨⟨"exact f ".toList, [⟨.block " first -- not second ".toList, " x".toList⟩], by decide, by decide,
    ⟨'e', rfl, by decide⟩⟩, rfl, by decide, ?_, by decide⟩
  have hclean : clean "exact f /- first -- not second -/ x".toList = "exact f /- first".toList := by cbv
  exact hclean

end ProofDump.Ast
