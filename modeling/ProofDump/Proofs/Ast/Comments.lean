import ProofDump.Proofs.Ast.Clean

/-!
# Comments in proof texts

Line comments are dropped first, whatever they stand in, and block comments second, so a block comment vanishes as a
whole only if it stays closed: if no mark of a line comment stands at its opening or on its last line. A block
comment that lost its end goes on to the first mark behind it that closes one and is not in a line comment. For a
single comment behind it, `afterBlock?_text` says whether it has such a mark and what comes after that.
-/

namespace ProofDump.Ast

/-! ### Marks -/

theorem not_infix_append {first second : Char} {text rest : List Char} (htext : ¬ [first, second] <:+: text)
    (hrest : ¬ [first, second] <:+: rest) (hends : text.getLast? = some first → rest.head? ≠ some second) :
    ¬ [first, second] <:+: text ++ rest := by
  induction text with
  | nil => exact hrest
  | cons c text ih =>
      rw [List.cons_append, List.infix_cons_iff, not_or]
      have hlater : ¬ [first, second] <:+: text := mt List.infix_cons htext
      exact ⟨not_prefix_of_ends htext hends, ih hlater fun hlast => hends (getLast?_of_cons hlast)⟩

theorem append_closeMark (text rest : List Char) : text ++ (closeMark ++ rest) = text ++ ['-'] ++ '/' :: rest := by
  simp [closeMark]

theorem afterBlock?_cons {c : Char} {rest : List Char} (hmark : ¬ closeMark <+: c :: rest) :
    afterBlock? (c :: rest) = afterBlock? rest := by
  rw [afterBlock?]
  rintro after rfl rfl
  exact hmark ⟨after, rfl⟩

/-- A block comment goes on over a text without a mark that closes one. -/
theorem afterBlock?_append {front rest : List Char} (hfront : ¬ closeMark <:+: front)
    (hends : front.getLast? = some '-' → rest.head? ≠ some '/') : afterBlock? (front ++ rest) = afterBlock? rest := by
  induction front with
  | nil => rfl
  | cons c front ih =>
      rw [List.cons_append, afterBlock?_cons (not_prefix_of_ends hfront hends)]
      exact ih (mt List.infix_cons hfront) fun hlast => hends (getLast?_of_cons hlast)

theorem afterBlock?_closed {body : List Char} (hbody : ¬ closeMark <:+: body) (rest : List Char) :
    afterBlock? (body ++ closeMark ++ rest) = some rest := by
  rw [List.append_assoc, afterBlock?_append hbody fun _ => by simp [closeMark]]
  rfl

theorem afterBlock?_eq_none {text : List Char} (htext : ¬ closeMark <:+: text) : afterBlock? text = none := by
  fun_induction afterBlock? text with
  | case1 rest => exact absurd ⟨[], rest, rfl⟩ htext
  | case2 c text hmark ih => exact ih (mt List.infix_cons htext)
  | case3 => rfl

theorem dropBlocks_openMark (text : List Char) :
    dropBlocks (openMark ++ text) =
      match afterBlock? text with
      | some after => dropBlocks after
      | none => '/' :: dropBlocks ('-' :: text) := by
  show dropBlocks ('/' :: '-' :: text) = _
  rw [dropBlocks]
  split
  · rename_i after hblock
    rw [hblock]
  · rename_i hblock
    rw [hblock]

/-! ### Line comments -/

/-- What is left of the rest of a line comment begins with the end of its line. -/
theorem head?_dropLineComments_true {text : List Char} {c : Char} (hc : c ∈ (dropLineComments true text).head?) :
    c = '\n' := by
  induction text with
  | nil => cases hc
  | cons d text ih =>
      rw [dropLineComments, if_pos rfl] at hc
      split at hc
      · rename_i hd
        cases hc
        exact hd
      · exact ih hc

theorem head?_of_dropLineComments {text : List Char} (hslash : (dropLineComments false text).head? = some '/') :
    text.head? = some '/' := by
  cases text with
  | nil => cases hslash
  | cons c text =>
      by_cases hmark : lineMark <+: c :: text
      · obtain ⟨after, hafter⟩ := hmark
        obtain ⟨rfl, rfl⟩ : '-' = c ∧ '-' :: after = text := by simpa [lineMark] using hafter
        rw [dropLineComments, if_neg Bool.false_ne_true, if_pos ⟨rfl, rfl⟩] at hslash
        cases head?_dropLineComments_true hslash
      · rw [dropLineComments_cons hmark] at hslash
        exact hslash

/-- A line comment ends with its line. -/
theorem dropLineComments_newline (inside : Bool) (text rest : List Char) :
    dropLineComments inside (text ++ '\n' :: rest) =
      dropLineComments inside text ++ '\n' :: dropLineComments false rest := by
  induction text generalizing inside with
  | nil => cases inside <;> simp [dropLineComments]
  | cons c text ih =>
      have hhead : (text ++ '\n' :: rest).head? = some '-' ↔ text.head? = some '-' := by
        cases text <;> simp
      rw [List.cons_append, dropLineComments, dropLineComments, ih, ih]
      simp only [hhead]
      split_ifs <;> simp

theorem dropLineComments_within {text rest : List Char} (htext : '\n' ∉ text) :
    dropLineComments true (text ++ rest) = dropLineComments true rest := by
  induction text with
  | nil => rfl
  | cons c text ih =>
      rw [List.mem_cons, not_or] at htext
      rw [List.cons_append, dropLineComments, if_pos rfl, if_neg (Ne.symm htext.1), ih htext.2]

theorem dropLineComments_true_newline {line : List Char} (hline : '\n' ∉ line) (rest : List Char) :
    dropLineComments true (line ++ '\n' :: rest) = '\n' :: dropLineComments false rest := by
  rw [dropLineComments_within hline, dropLineComments, if_pos rfl, if_pos rfl]

/-- What is dropped of a line with a mark in it, and of the lines after it. -/
theorem dropLineComments_marked {line : List Char} (hline : '\n' ∉ line) (hmark : lineMark <:+: line)
    (rest : List Char) :
    ∃ code, code ++ lineMark <+: line ∧
      dropLineComments false (line ++ rest) = code ++ dropLineComments true rest := by
  induction line with
  | nil => exact absurd hmark (by simp [lineMark])
  | cons c line ih =>
      rw [List.mem_cons, not_or] at hline
      by_cases hfirst : lineMark <+: c :: line
      · refine ⟨[], hfirst, ?_⟩
        obtain ⟨after, hafter⟩ := hfirst
        obtain ⟨rfl, rfl⟩ : '-' = c ∧ '-' :: after = line := by simpa [lineMark] using hafter
        rw [List.cons_append, dropLineComments, if_neg Bool.false_ne_true, if_pos ⟨rfl, rfl⟩,
          dropLineComments_within hline.2]
        rfl
      · have hlater := (List.infix_cons_iff.1 hmark).resolve_left hfirst
        obtain ⟨code, hcode, hdropped⟩ := ih hline.2 hlater
        refine ⟨c :: code, (List.prefix_cons_inj c).2 hcode, ?_⟩
        have hnext : ¬ lineMark <+: c :: (line ++ rest) := by
          cases line with
          | nil => exact absurd hlater (by simp [lineMark])
          | cons d line => simpa [lineMark] using hfirst
        rw [List.cons_append, dropLineComments_cons hnext, hdropped, List.cons_append]

theorem not_closeMark_dropLineComments {inside : Bool} {text : List Char} (htext : ¬ closeMark <:+: text) :
    ¬ closeMark <:+: dropLineComments inside text := by
  fun_induction dropLineComments inside text with
  | case1 => exact htext
  | case2 rest ih =>
      rw [List.infix_cons_iff, not_or] at htext ⊢
      exact ⟨by simp [closeMark], ih htext.2⟩
  | case3 c rest hc ih => exact ih (mt List.infix_cons htext)
  | case4 inside c rest hinside hmark ih => exact ih (mt List.infix_cons htext)
  | case5 inside c rest hinside hmark ih =>
      rw [List.infix_cons_iff, not_or] at htext ⊢
      refine ⟨?_, ih htext.2⟩
      rintro ⟨after, hstarts⟩
      obtain ⟨rfl, hafter⟩ : '-' = c ∧ '/' :: after = dropLineComments false rest := by
        simpa [closeMark] using hstarts
      -- The slash is the next character of the text itself: a dropped comment would leave the end of its line.
      cases rest with
      | nil => cases hafter
      | cons d rest =>
          by_cases hnext : lineMark <+: d :: rest
          · obtain ⟨body, hbody⟩ := hnext
            obtain ⟨rfl, rfl⟩ : '-' = d ∧ '-' :: body = rest := by simpa [lineMark] using hbody
            exact hmark ⟨rfl, rfl⟩
          · rw [dropLineComments_cons hnext] at hafter
            obtain ⟨hd, -⟩ := List.cons.inj hafter
            subst hd
            exact htext.1 ⟨rest, rfl⟩

/-- Before its last line a text is empty or ends with the end of a line. -/
theorem beforeLastLine_cases (text : List Char) :
    text.rdropWhile (· ≠ '\n') = [] ∨ ∃ lines, text.rdropWhile (· ≠ '\n') = lines ++ ['\n'] := by
  by_cases hnil : text.rdropWhile (· ≠ '\n') = []
  · exact .inl hnil
  · have hlast := List.rdropWhile_last_not (· ≠ '\n') text hnil
    refine .inr ⟨(text.rdropWhile (· ≠ '\n')).dropLast, (List.dropLast_concat_getLast hnil).symm.trans ?_⟩
    rw [show (text.rdropWhile (· ≠ '\n')).getLast hnil = '\n' by simpa using hlast]

/-- Line comments before the last line of a text are dropped as if the text ended there. -/
theorem dropLineComments_lastLine (text rest : List Char) :
    dropLineComments false (text ++ rest) =
      dropLineComments false (text.rdropWhile (· ≠ '\n')) ++
        dropLineComments false (text.rtakeWhile (· ≠ '\n') ++ rest) := by
  have hlines : text.rdropWhile (· ≠ '\n') ++ text.rtakeWhile (· ≠ '\n') = text := List.rdropWhile_append_rtakeWhile
  conv_lhs => rw [← hlines]
  rcases beforeLastLine_cases text with hnil | ⟨lines, hlines⟩
  · rw [hnil]
    rfl
  · rw [hlines, List.append_assoc, List.append_assoc, List.singleton_append, dropLineComments_newline,
      dropLineComments_newline]
    simp [dropLineComments]

theorem getLast?_dropLineComments_lines {text : List Char} {c : Char}
    (hc : c ∈ (dropLineComments false (text.rdropWhile (· ≠ '\n'))).getLast?) : c = '\n' := by
  rcases beforeLastLine_cases text with hnil | ⟨lines, hlines⟩
  · rw [hnil] at hc
    cases hc
  · rw [hlines, dropLineComments_newline, List.getLast?_append_of_ne_nil _ (by simp)] at hc
    cases hc
    rfl

/-! ### Comments -/

/-- The text without comments. -/
def uncomment (text : List Char) : List Char := dropBlocks (dropLineComments false text)

inductive Comment where
  | line (body : List Char)
  | block (body : List Char)
deriving DecidableEq

namespace Comment

def text : Comment → List Char
  | line body => lineMark ++ body
  | block body => openMark ++ body ++ closeMark

def isLine : Comment → Bool
  | line _ => true
  | block _ => false

/-- A line comment is within a line, and in a block comment there is no other mark of one. -/
def IsWhole : Comment → Prop
  | line body => '\n' ∉ body
  | block body => ¬ openMark <:+: body ∧ ¬ closeMark <:+: body

/-- No mark of a line comment is at the opening of a block comment or on its last line, the characters of its own
marks included. -/
def StaysClosed : Comment → Prop
  | line _ => True
  | block body =>
    ¬ lineMark <+: '-' :: (body ++ ['-']) ∧ ¬ lineMark <:+: (body ++ ['-']).rtakeWhile (· ≠ '\n')

instance (comment : Comment) : Decidable comment.IsWhole :=
  match comment with
  | line body => inferInstanceAs (Decidable ('\n' ∉ body))
  | block body => inferInstanceAs (Decidable (¬ openMark <:+: body ∧ ¬ closeMark <:+: body))

instance (comment : Comment) : Decidable comment.StaysClosed :=
  match comment with
  | line _ => inferInstanceAs (Decidable True)
  | block body => inferInstanceAs (Decidable
      (¬ lineMark <+: '-' :: (body ++ ['-']) ∧ ¬ lineMark <:+: (body ++ ['-']).rtakeWhile (· ≠ '\n')))

/-- A line comment begins at the opening of a block comment. -/
def LosesOpening : Comment → Prop
  | line _ => False
  | block body => lineMark <+: '-' :: (body ++ ['-'])

/-- A line comment begins on the last line of a block comment and takes its closing mark. -/
def LosesEnd : Comment → Prop
  | line _ => False
  | block body => lineMark <:+: (body ++ ['-']).rtakeWhile (· ≠ '\n')

instance (comment : Comment) : Decidable comment.LosesOpening :=
  match comment with
  | line _ => inferInstanceAs (Decidable False)
  | block body => inferInstanceAs (Decidable (lineMark <+: '-' :: (body ++ ['-'])))

instance (comment : Comment) : Decidable comment.LosesEnd :=
  match comment with
  | line _ => inferInstanceAs (Decidable False)
  | block body => inferInstanceAs (Decidable (lineMark <:+: (body ++ ['-']).rtakeWhile (· ≠ '\n')))

/-- What is left of a comment behind the first mark in it that closes a block comment, if one is left when line
comments are dropped. It is the closing mark of the comment, or its opening mark with a slash after it. The
comment begins in a line comment unless it is `fresh`. -/
def behindMark? (fresh : Bool) : Comment → Option (List Char)
  | line _ => none
  | block body =>
    if fresh ∧ body.head? = some '/' then some (body.tail ++ closeMark)
    else if ¬ (block body).LosesEnd ∧ ('\n' ∈ body ∨ fresh ∧ ¬ (block body).LosesOpening) then some []
    else none

theorem dropLineComments_line {body : List Char} (hbody : '\n' ∉ body) (rest : List Char) :
    dropLineComments false ((line body).text ++ rest) = dropLineComments true rest := by
  have hopened : dropLineComments false (lineMark ++ (body ++ rest)) = dropLineComments true (body ++ rest) := by
    simp [lineMark, dropLineComments]
  rw [text, List.append_assoc, hopened, dropLineComments_within hbody]

/-- The opening of a block comment is kept unless a line comment begins there. -/
theorem dropLineComments_open {body : List Char} (hopening : ¬ (block body).LosesOpening) (rest : List Char) :
    dropLineComments false ((block body).text ++ rest) =
      openMark ++ dropLineComments false (body ++ closeMark ++ rest) := by
  have hdash : ¬ lineMark <+: '-' :: (body ++ closeMark ++ rest) := by
    cases body with
    | nil => exact absurd ⟨[], rfl⟩ hopening
    | cons c body => simpa [LosesOpening, lineMark] using hopening
  show dropLineComments false ('/' :: '-' :: (body ++ closeMark ++ rest)) = _
  rw [dropLineComments_cons (by simp [lineMark]), dropLineComments_cons hdash]
  rfl

theorem dropLineComments_lostOpening {body : List Char} (hopening : (block body).LosesOpening) (rest : List Char) :
    dropLineComments false ((block body).text ++ rest) = '/' :: dropLineComments true (body ++ closeMark ++ rest) := by
  obtain ⟨within, hwithin⟩ : ∃ within, body ++ closeMark ++ rest = '-' :: within := by
    cases body with
    | nil => exact ⟨'/' :: rest, rfl⟩
    | cons c body =>
        obtain rfl : '-' = c := by simpa [LosesOpening, lineMark] using hopening
        exact ⟨_, rfl⟩
  show dropLineComments false ('/' :: '-' :: (body ++ closeMark ++ rest)) = _
  rw [hwithin, dropLineComments_cons (by simp [lineMark]), dropLineComments, if_neg Bool.false_ne_true,
    if_pos ⟨rfl, rfl⟩]

theorem dropLineComments_end {body : List Char} (hlast : ¬ (block body).LosesEnd) (rest : List Char) :
    dropLineComments false (body ++ closeMark ++ rest) =
      dropLineComments false body ++ closeMark ++ dropLineComments false rest := by
  rw [LosesEnd, List.rtakeWhile_concat_pos _ _ _ (by decide)] at hlast
  have hline : ¬ lineMark <:+: body.rtakeWhile (· ≠ '\n') :=
    fun hmark => hlast (hmark.trans (List.prefix_append _ _).isInfix)
  have hends : dropLineComments false (body.rtakeWhile (· ≠ '\n') ++ (closeMark ++ rest)) =
      body.rtakeWhile (· ≠ '\n') ++ (closeMark ++ dropLineComments false rest) := by
    have hslash : dropLineComments false ('/' :: rest) = '/' :: dropLineComments false rest :=
      dropLineComments_cons (by simp [lineMark])
    rw [append_closeMark, append_closeMark, dropLineComments_append hlast (by simp), hslash]
  have hbody := dropLineComments_lastLine body []
  rw [List.append_nil, List.append_nil, dropLineComments_of_code hline] at hbody
  rw [List.append_assoc, dropLineComments_lastLine, hends, hbody]
  simp only [List.append_assoc]

/-- A line comment that begins on the last line of a block comment takes the closing mark with it. What is left
of the body closes nothing. -/
theorem exists_dropLineComments_lastLine {body : List Char} (hbody : ¬ closeMark <:+: body)
    (hlast : (block body).LosesEnd) (rest : List Char) :
    ∃ kept, dropLineComments false (body ++ closeMark ++ rest) = kept ++ dropLineComments true rest ∧
      ¬ closeMark <:+: kept := by
  rw [LosesEnd, List.rtakeWhile_concat_pos _ _ _ (by decide)] at hlast
  have hline : '\n' ∉ body.rtakeWhile (· ≠ '\n') ++ ['-'] := by
    rw [List.mem_append, not_or]
    exact ⟨fun hmem => by simpa using List.mem_rtakeWhile_imp hmem, by simp⟩
  obtain ⟨code, hcode, hdropped⟩ := dropLineComments_marked hline hlast ('/' :: rest)
  have hbefore : code <+: body.rtakeWhile (· ≠ '\n') := by
    obtain ⟨after, hafter⟩ := hcode
    refine List.prefix_of_prefix_length_le ⟨lineMark ++ after, ?_⟩ (List.prefix_append _ ['-']) ?_
    · rw [← List.append_assoc]
      exact hafter
    · have hlength := congrArg List.length hafter
      simp only [List.length_append, lineMark, List.length_cons, List.length_nil] at hlength
      omega
  refine ⟨dropLineComments false (body.rdropWhile (· ≠ '\n')) ++ code, ?_, ?_⟩
  · have hslash : dropLineComments true ('/' :: rest) = dropLineComments true rest := by
      simp [dropLineComments]
    rw [List.append_assoc, dropLineComments_lastLine, append_closeMark, hdropped, hslash, List.append_assoc]
  · have hlines := List.rdropWhile_prefix (· ≠ '\n') (l := body)
    refine not_infix_append (not_closeMark_dropLineComments fun hmark => hbody (hmark.trans hlines.isInfix)) ?_ ?_
    · exact fun hmark => hbody (hmark.trans (hbefore.isInfix.trans (List.rtakeWhile_suffix _ body).isInfix))
    · intro hdash
      cases getLast?_dropLineComments_lines hdash

/-- Where a block comment ends that goes on with a body. -/
theorem afterBlock?_body {body : List Char} (hbody : ¬ closeMark <:+: body) (rest : List Char) :
    afterBlock? (dropLineComments false (body ++ closeMark ++ rest)) =
      if (block body).LosesEnd then afterBlock? (dropLineComments true rest)
      else some (dropLineComments false rest) := by
  split
  · rename_i hlast
    obtain ⟨kept, hdropped, hkept⟩ := exists_dropLineComments_lastLine hbody hlast rest
    rw [hdropped, afterBlock?_append hkept fun _ hslash => by cases head?_dropLineComments_true hslash]
  · rename_i hlast
    rw [dropLineComments_end hlast, afterBlock?_closed (not_closeMark_dropLineComments hbody)]

theorem losesEnd_newline {front back : List Char} :
    (block (front ++ '\n' :: back)).LosesEnd ↔ (block back).LosesEnd := by
  have hlast : (front ++ '\n' :: back ++ ['-']).rtakeWhile (· ≠ '\n') = (back ++ ['-']).rtakeWhile (· ≠ '\n') := by
    have hline : ((back ++ ['-']).reverse ++ '\n' :: front.reverse).takeWhile (· ≠ '\n') =
        (back ++ ['-']).reverse.takeWhile (· ≠ '\n') := by
      rw [List.takeWhile_append]
      split
      · rename_i hall
        rw [List.takeWhile_cons_of_neg (by simp), List.append_nil]
        exact (List.takeWhile_sublist _).eq_of_length hall |>.symm
      · rfl
    rw [List.rtakeWhile, List.rtakeWhile, ← hline]
    simp
  rw [LosesEnd, LosesEnd, hlast]

/-- Where a block comment ends that goes on with a body, in a line comment. -/
theorem afterBlock?_body_true {body : List Char} (hbody : ¬ closeMark <:+: body) (rest : List Char) :
    afterBlock? (dropLineComments true (body ++ closeMark ++ rest)) =
      if '\n' ∈ body ∧ ¬ (block body).LosesEnd then some (dropLineComments false rest)
      else afterBlock? (dropLineComments true rest) := by
  by_cases hnewline : '\n' ∈ body
  · obtain ⟨front, back, rfl, hfront⟩ := List.eq_append_cons_of_mem hnewline
    have hback : ¬ closeMark <:+: back :=
      fun hmark => hbody ((List.infix_cons hmark).trans (List.suffix_append _ _).isInfix)
    have hdropped : dropLineComments true (front ++ '\n' :: back ++ closeMark ++ rest) =
        '\n' :: dropLineComments false (back ++ closeMark ++ rest) := by
      rw [List.append_assoc, List.append_assoc, List.cons_append, dropLineComments_true_newline hfront,
        List.append_assoc]
    rw [hdropped, afterBlock?_cons (by simp [closeMark]), afterBlock?_body hback]
    by_cases hlast : (block back).LosesEnd
    · rw [if_pos hlast, if_neg fun hkept => hkept.2 (losesEnd_newline.2 hlast)]
    · rw [if_neg hlast, if_pos ⟨hnewline, mt losesEnd_newline.1 hlast⟩]
  · have hline : '\n' ∉ body ++ closeMark := by simpa [closeMark] using hnewline
    rw [if_neg fun hkept => hnewline hkept.1, dropLineComments_within hline]

theorem behindMark?_of_line {fresh : Bool} {body : List Char} (hline : fresh = false ∨ (block body).LosesOpening) :
    (block body).behindMark? fresh = if '\n' ∈ body ∧ ¬ (block body).LosesEnd then some [] else none := by
  have hslash : ¬ (fresh = true ∧ body.head? = some '/') := by
    rintro ⟨rfl, hhead⟩
    obtain ⟨body, rfl⟩ := List.head?_eq_some_iff.1 hhead
    simp [LosesOpening, lineMark] at hline
  have hmark : (¬ (block body).LosesEnd ∧ ('\n' ∈ body ∨ fresh = true ∧ ¬ (block body).LosesOpening)) ↔
      '\n' ∈ body ∧ ¬ (block body).LosesEnd := by
    rcases hline with rfl | hopening
    · simp [and_comm]
    · simp [hopening, and_comm]
  simp only [behindMark?, if_neg hslash, hmark]

/-- Where a block comment ends that goes on with another comment. -/
theorem afterBlock?_text {comment : Comment} (hwhole : comment.IsWhole) (fresh : Bool) (rest : List Char) :
    afterBlock? (dropLineComments (!fresh) (comment.text ++ rest)) =
      match comment.behindMark? fresh with
      | some behind => some (dropLineComments false (behind ++ rest))
      | none => afterBlock? (dropLineComments true rest) := by
  cases comment with
  | line body =>
      have hline : '\n' ∉ lineMark ++ body := by simpa [lineMark, IsWhole] using hwhole
      cases fresh with
      | false => rw [Bool.not_false, text, dropLineComments_within hline]; rfl
      | true => rw [Bool.not_true, dropLineComments_line hwhole]; rfl
  | block body =>
      by_cases hline : fresh = false ∨ (block body).LosesOpening
      · -- The body goes on in a line comment. A slash at the opening closes nothing.
        have hdropped : afterBlock? (dropLineComments (!fresh) ((block body).text ++ rest)) =
            afterBlock? (dropLineComments true (body ++ closeMark ++ rest)) := by
          cases fresh with
          | false => simp [text, openMark, dropLineComments]
          | true =>
              rw [Bool.not_true, dropLineComments_lostOpening (hline.resolve_left Bool.noConfusion),
                afterBlock?_cons (by simp [closeMark])]
        rw [hdropped, afterBlock?_body_true hwhole.2, behindMark?_of_line hline]
        split_ifs <;> rfl
      · obtain ⟨hfresh, hopening⟩ := not_or.1 hline
        obtain rfl := Bool.of_not_eq_false hfresh
        rw [Bool.not_true, dropLineComments_open hopening]
        by_cases hslash : body.head? = some '/'
        · obtain ⟨body, rfl⟩ := List.head?_eq_some_iff.1 hslash
          rw [behindMark?, if_pos ⟨rfl, hslash⟩]
          show afterBlock? (openMark ++ dropLineComments false ('/' :: (body ++ closeMark ++ rest))) = _
          rw [dropLineComments_cons (by simp [lineMark])]
          rfl
        · have hhead : (dropLineComments false (body ++ closeMark ++ rest)).head? ≠ some '/' := by
            intro hhead
            have hfirst := head?_of_dropLineComments hhead
            cases body with
            | nil => cases hfirst
            | cons c body => exact hslash hfirst
          have hother : ¬ (true = true ∧ body.head? = some '/') := fun hsame => hslash hsame.2
          rw [afterBlock?_append (by decide) fun _ => hhead, afterBlock?_body hwhole.2, behindMark?, if_neg hother]
          by_cases hlast : (block body).LosesEnd
          · rw [if_pos hlast, if_neg fun hkept => hkept.1 hlast]
          · rw [if_neg hlast, if_pos ⟨hlast, .inr ⟨rfl, hopening⟩⟩]
            rfl

/-! ### Single comments -/

theorem uncomment_closed {comment : Comment} (hwhole : comment.IsWhole) (hclosed : comment.StaysClosed)
    {rest : List Char} (hends : comment.isLine = true → ∀ c ∈ rest.head?, c = '\n') :
    uncomment (comment.text ++ rest) = uncomment rest := by
  cases comment with
  | block body =>
      have hlast : ¬ (block body).LosesEnd := hclosed.2
      rw [uncomment, dropLineComments_open hclosed.1, dropBlocks_openMark, afterBlock?_body hwhole.2, if_neg hlast]
      rfl
  | line body =>
      rw [uncomment, dropLineComments_line hwhole, uncomment]
      cases rest with
      | nil => rfl
      | cons c rest =>
          obtain rfl := hends rfl c rfl
          simp [dropLineComments]

/-- A block comment that loses its end goes on behind it. -/
theorem uncomment_lost {comment : Comment} (hwhole : comment.IsWhole) (hclosed : ¬ comment.StaysClosed)
    (hopening : ¬ comment.LosesOpening) (rest : List Char) :
    match afterBlock? (dropLineComments true rest) with
    | some after => uncomment (comment.text ++ rest) = dropBlocks after
    | none => (uncomment (comment.text ++ rest)).head? = some '/' := by
  cases comment with
  | line body => exact absurd trivial hclosed
  | block body =>
      have hlast : (block body).LosesEnd := by
        by_contra hlast
        exact hclosed ⟨hopening, hlast⟩
      rw [uncomment, dropLineComments_open hopening, dropBlocks_openMark, afterBlock?_body hwhole.2, if_pos hlast]
      cases afterBlock? (dropLineComments true rest) with
      | some after => rfl
      | none => rfl

/-- A line comment that begins at the opening of a block comment leaves its first character. -/
theorem exists_uncomment_opening {comment : Comment} (hopening : comment.LosesOpening) (rest : List Char) :
    ∃ after, uncomment (comment.text ++ rest) = '/' :: after := by
  cases comment with
  | line body => exact hopening.elim
  | block body =>
      have hslash : ¬ openMark <+: '/' :: dropLineComments true (body ++ closeMark ++ rest) := by
        rintro ⟨after, hafter⟩
        have hdash : '-' ∈ (dropLineComments true (body ++ closeMark ++ rest)).head? := by
          rw [← (List.cons.inj hafter).2]
          rfl
        cases head?_dropLineComments_true hdash
      exact ⟨_, by rw [uncomment, dropLineComments_lostOpening hopening, dropBlocks_cons hslash]⟩

end Comment

/-! ### Blanks around a text -/

theorem not_infix_of_blanks {first second : Char} (hfirst : Text.isBlank first = false) {blanks : List Char}
    (hblanks : ∀ c ∈ blanks, Text.isBlank c = true) : ¬ [first, second] <:+: blanks := by
  rintro ⟨before, after, rfl⟩
  rw [hblanks first (by simp)] at hfirst
  cases hfirst

theorem head?_append_blanks {text blanks : List Char} (hblanks : ∀ c ∈ blanks, Text.isBlank c = true) :
    (text ++ blanks).head? = some '-' ↔ text.head? = some '-' := by
  cases text with
  | cons c text => rfl
  | nil =>
      refine ⟨fun hhead => ?_, fun hhead => by cases hhead⟩
      have hdash := hblanks '-' (List.mem_of_mem_head? hhead)
      exact absurd hdash (by decide)

theorem dropLineComments_append_blanks (inside : Bool) (text : List Char) {blanks : List Char}
    (hblanks : ∀ c ∈ blanks, Text.isBlank c = true) :
    ∃ left, dropLineComments inside (text ++ blanks) = dropLineComments inside text ++ left ∧
      ∀ c ∈ left, Text.isBlank c = true := by
  induction text generalizing inside with
  | nil => exact ⟨_, rfl, fun c hc => hblanks c ((dropLineComments_sublist inside blanks).mem hc)⟩
  | cons c text ih =>
      obtain ⟨left, hleft, hblank⟩ := ih true
      obtain ⟨other, hother, hotherBlank⟩ := ih false
      rw [List.cons_append, dropLineComments, dropLineComments, hleft, hother]
      simp only [head?_append_blanks hblanks]
      split_ifs
      · exact ⟨other, rfl, hotherBlank⟩
      · exact ⟨left, rfl, hblank⟩
      · exact ⟨left, rfl, hblank⟩
      · exact ⟨other, rfl, hotherBlank⟩

theorem afterBlock?_append_blanks (text : List Char) {blanks : List Char}
    (hblanks : ∀ c ∈ blanks, Text.isBlank c = true) :
    afterBlock? (text ++ blanks) = (afterBlock? text).map (· ++ blanks) := by
  fun_induction afterBlock? text with
  | case1 rest => rfl
  | case2 c text hmark ih =>
      rw [List.cons_append, afterBlock?, ih]
      rintro after rfl hafter
      cases text with
      | nil =>
          have hslash := hblanks '/' (by rw [List.nil_append] at hafter; simp [hafter])
          exact absurd hslash (by decide)
      | cons d text =>
          obtain ⟨rfl, -⟩ := List.cons.inj hafter
          exact hmark text rfl rfl
  | case3 => exact afterBlock?_eq_none (not_infix_of_blanks (by decide) hblanks)

theorem dropBlocks_append_blanks (text : List Char) {blanks : List Char}
    (hblanks : ∀ c ∈ blanks, Text.isBlank c = true) : dropBlocks (text ++ blanks) = dropBlocks text ++ blanks := by
  fun_induction dropBlocks text with
  | case1 => exact dropBlocks_of_code (not_infix_of_blanks (by decide) hblanks)
  | case2 body after hblock ih =>
      have hlater := afterBlock?_append_blanks body hblanks
      rw [hblock] at hlater
      rw [List.cons_append, List.cons_append, dropBlocks, ← ih]
      split
      · rename_i other hother
        rw [hother] at hlater
        cases hlater
        rfl
      · rename_i hother
        rw [hother] at hlater
        cases hlater
  | case3 body hblock ih =>
      have hlater := afterBlock?_append_blanks body hblanks
      rw [hblock] at hlater
      rw [List.cons_append, List.cons_append, dropBlocks]
      split
      · rename_i other hother
        rw [hother] at hlater
        cases hlater
      · rw [← List.cons_append, ih]
        rfl
  | case4 c rest hmark ih =>
      rw [List.cons_append, dropBlocks_cons, ih, List.cons_append]
      rintro ⟨body, hbody⟩
      obtain ⟨rfl, hrest⟩ : '/' = c ∧ '-' :: body = rest ++ blanks := by simpa [openMark] using hbody
      obtain ⟨body, rfl⟩ := List.head?_eq_some_iff.1 ((head?_append_blanks hblanks).1 (by rw [← hrest]; rfl))
      exact hmark body rfl rfl

/-- Blanks around a text make no difference to its comments. -/
theorem uncomment_eq_strip (text : List Char) :
    ∃ before after, uncomment text = before ++ uncomment (Text.strip text) ++ after ∧
      (∀ c ∈ before, Text.isBlank c = true) ∧ ∀ c ∈ after, Text.isBlank c = true := by
  obtain ⟨before, after, htext, hbefore, hafter⟩ := Text.exists_blanks_around text
  obtain ⟨left, hleft, hblank⟩ := dropLineComments_append_blanks false (Text.strip text) hafter
  have hne {c : Char} (hc : Text.isBlank c = false) : before.getLast? ≠ some c := by
    intro hlast
    rw [hbefore c (List.mem_of_getLast? hlast)] at hc
    cases hc
  refine ⟨before, left, ?_, hbefore, hblank⟩
  conv_lhs => rw [htext, List.append_assoc]
  rw [uncomment,
    dropLineComments_append (not_infix_of_blanks (by decide) hbefore) fun hlast => absurd hlast (hne (by decide)),
    dropBlocks_append (not_infix_of_blanks (by decide) hbefore) fun hlast => absurd hlast (hne (by decide)),
    hleft, dropBlocks_append_blanks _ hblank, uncomment, List.append_assoc]

end ProofDump.Ast
