import ProofDump.Proofs.Json.Line
import ProofDump.Proofs.Text.Halves

/-!
# Reading what was written

A text is read back, in its held form, from the way it is written (`readText_writeText`). In the other
direction, whatever the reader takes for a text is made of held characters and halves. What holds of the smallest
values that are read and is passed on by lists and records holds of all that is read (`ReadClosed.of_read`).
-/

namespace ProofDump.Json

section Equations

variable (start : Nat) (before rest : List Char)

theorem readText_quote : readText start before ('"' :: rest) = .ok (String.ofList before.reverse, rest) := by
  rw [readText]

theorem readText_letter {letter c : Char} (hu : letter ≠ 'u') (hletter : unescape? letter = some c) :
    readText start before ('\\' :: letter :: rest) = readText start (c :: before) rest := by
  rw [readText]
  · rw [hletter]
  · exact fun _ _ _ _ _ hletter _ => hu hletter
  · exact hu

theorem readText_unit {a b c d : Char} {unit used : Nat} {chars : List Char} (hrest : rest ≠ [])
    (hquad : hexQuad? a b c d = some unit) (hunit : unescapeUnit unit rest = .ok (chars, used)) :
    readText start before ('\\' :: 'u' :: a :: b :: c :: d :: rest) =
      readText start (chars.reverse ++ before) (rest.drop used) := by
  rw [readText, if_neg (by simpa using hrest), hquad]
  simp only [hunit]

theorem readText_self {c : Char} (hquote : c ≠ '"') (hbackslash : c ≠ '\\') (hvisible : Visible c) :
    readText start before (c :: rest) = readText start ((Text.holdChar c).reverse ++ before) rest := by
  rw [readText]
  · exact if_neg (Nat.not_lt.2 hvisible)
  · exact hquote
  · exact fun hc _ => hbackslash hc
  · exact fun _ _ _ _ _ hc _ => hbackslash hc
  · exact fun _ hc _ => hbackslash hc
  · exact fun _ _ hc _ => hbackslash hc

end Equations

/-! ### Texts -/

theorem toNat_lt_of_unescape? {letter c : Char} (hletter : unescape? letter = some c) : c.toNat < 0x80 := by
  unfold unescape? at hletter
  split at hletter <;> cases hletter <;> decide

theorem ne_halfMark_of_lt {c : Char} (hc : c.toNat < 0x80) : c ≠ Text.halfMark := by
  rintro rfl
  exact absurd hc (by decide)

theorem hexadecimal_succ {width : Nat} (hwidth : 0 < width) (n : Nat) :
    Text.hexadecimal (width + 1) n = Text.hexadecimal width (n / 16) ++ [(n % 16).digitChar] := by
  simp only [Text.hexadecimal]
  rw [Nat.toDigits_eq_if (by decide)]
  split
  · rename_i hlt
    rw [Nat.div_eq_of_lt hlt, Nat.mod_eq_of_lt hlt, Nat.toDigits_zero]
    obtain ⟨less, rfl⟩ := Nat.exists_eq_add_of_le' hwidth
    exact congrArg (· ++ [n.digitChar]) List.replicate_succ'
  · rw [List.length_append, List.length_singleton, Nat.add_sub_add_right, List.append_assoc]

/-- The escape of a code unit reads as this unit. -/
theorem hexQuad?_escapeUnit {unit : Nat} (hunit : unit < 0x10000) : ∃ a b c d,
    escapeUnit unit = ['\\', 'u', a, b, c, d] ∧ hexQuad? a b c d = some unit := by
  have hvalue : ∀ digit < 16, hexValue? digit.digitChar = some digit := by decide
  have hfirst : Text.hexadecimal 1 (unit / 16 / 16 / 16) = [(unit / 16 / 16 / 16).digitChar] := by
    rw [Text.hexadecimal, Nat.toDigits_of_lt_base (by omega)]
    rfl
  refine ⟨(unit / 16 / 16 / 16).digitChar, (unit / 16 / 16 % 16).digitChar, (unit / 16 % 16).digitChar,
    (unit % 16).digitChar, ?_, ?_⟩
  · rw [escapeUnit, hexadecimal_succ (by decide), hexadecimal_succ (by decide), hexadecimal_succ (by decide), hfirst]
    rfl
  · rw [hexQuad?, hvalue _ (by omega), hvalue _ (by omega), hvalue _ (by omega), hvalue _ (by omega)]
    show some _ = _
    congr 1
    omega

theorem unescapeUnit_of_char {c : Char} (hunit : c.toNat < 0x10000) (rest : List Char) :
    unescapeUnit c.toNat rest = .ok ([c], 0) := by
  have hvalid : c.toNat < 0xD800 ∨ 0xDFFF < c.toNat ∧ c.toNat < 0x110000 := c.valid
  have hhigh : isHighHalf c.toNat = false := by
    simp only [isHighHalf, Bool.and_eq_false_iff, decide_eq_false_iff_not]
    omega
  have hhalf : Text.isHalf c.toNat = false := by
    simp only [Text.isHalf, Bool.and_eq_false_iff, decide_eq_false_iff_not]
    omega
  simp [unescapeUnit, hhigh, unitChars, hhalf]

/-- The escapes of two halves read as the character that they are halves of. -/
theorem unescapeUnit_of_halves {c : Char} (hbeyond : 0x10000 ≤ c.toNat) {rest : List Char} (hrest : rest ≠ []) :
    unescapeUnit (0xD800 + (c.toNat - 0x10000) / 0x400)
      (escapeUnit (0xDC00 + (c.toNat - 0x10000) % 0x400) ++ rest) = .ok (Text.holdChar c, 6) := by
  have hvalid : c.toNat < 0xD800 ∨ 0xDFFF < c.toNat ∧ c.toNat < 0x110000 := c.valid
  have hhigh : isHighHalf (0xD800 + (c.toNat - 0x10000) / 0x400) = true := by
    simp only [isHighHalf, Bool.and_eq_true, decide_eq_true_eq]
    omega
  have hlow : isLowHalf (0xDC00 + (c.toNat - 0x10000) % 0x400) = true := by
    simp only [isLowHalf, Bool.and_eq_true, decide_eq_true_eq]
    omega
  have hjoin : joinHalves (0xD800 + (c.toNat - 0x10000) / 0x400) (0xDC00 + (c.toNat - 0x10000) % 0x400) = c := by
    rw [joinHalves, show 0x10000 + (0xD800 + (c.toNat - 0x10000) / 0x400 - 0xD800) * 0x400 +
      (0xDC00 + (c.toNat - 0x10000) % 0x400 - 0xDC00) = c.toNat by omega, Char.ofNat_toNat]
  obtain ⟨a, b, d, e, hescape, hquad⟩ := hexQuad?_escapeUnit
    (show 0xDC00 + (c.toNat - 0x10000) % 0x400 < 0x10000 by omega)
  have hnext : nextUnit? (escapeUnit (0xDC00 + (c.toNat - 0x10000) % 0x400) ++ rest) =
      .ok (some (0xDC00 + (c.toNat - 0x10000) % 0x400)) := by
    rw [hescape]
    show (if rest.isEmpty then _ else _) = _
    rw [if_neg (by simpa using hrest), hquad]
  rw [unescapeUnit, if_pos hhigh, hnext]
  simp only [if_pos hlow, hjoin]

section Charset

variable (charset : Charset)

theorem readText_writeChar (start : Nat) (before : List Char) (c : Char) {rest : List Char}
    (hrest : rest ≠ []) :
    readText start before (writeChar charset c ++ rest) =
      readText start ((Text.holdChar c).reverse ++ before) rest := by
  have hspelled := writeChar_spelled charset c
  generalize writeChar charset c = text at hspelled
  cases hspelled with
  | @letter letter hletter hvisible hu =>
      rw [Text.holdChar_of_ne (ne_halfMark_of_lt (toNat_lt_of_unescape? hletter))]
      exact readText_letter start before rest hu hletter
  | code hunit =>
      obtain ⟨a, b, d, e, hescape, hquad⟩ := hexQuad?_escapeUnit hunit
      have hmark : c ≠ Text.halfMark := by
        rintro rfl
        exact absurd hunit (by decide)
      rw [Text.holdChar_of_ne hmark, hescape]
      exact readText_unit start before rest hrest hquad (unescapeUnit_of_char hunit rest)
  | halves hbeyond =>
      have hvalid : c.toNat < 0xD800 ∨ 0xDFFF < c.toNat ∧ c.toNat < 0x110000 := c.valid
      have hread := unescapeUnit_of_halves hbeyond hrest
      obtain ⟨a, b, d, e, hescape, hquad⟩ := hexQuad?_escapeUnit
        (show 0xD800 + (c.toNat - 0x10000) / 0x400 < 0x10000 by omega)
      obtain ⟨f, g, h, i, hsecond, -⟩ := hexQuad?_escapeUnit
        (show 0xDC00 + (c.toNat - 0x10000) % 0x400 < 0x10000 by omega)
      rw [hsecond] at hread ⊢
      rw [hescape]
      exact readText_unit start before _ (List.cons_ne_nil _ _) hquad hread
  | self hvisible hquote hbackslash => exact readText_self start before rest hquote hbackslash hvisible

theorem readText_writeChars (start : Nat) (before text rest : List Char) :
    readText start before (writeChars charset text ++ '"' :: rest) =
      .ok (String.ofList (before.reverse ++ Text.hold text), rest) := by
  induction text generalizing before with
  | nil =>
      rw [writeChars, List.flatMap_nil, List.nil_append, readText_quote]
      simp [Text.hold]
  | cons c text ih =>
      rw [writeChars, List.flatMap_cons, List.append_assoc, readText_writeChar _ _ _ _ (by simp)]
      show readText _ _ (writeChars charset text ++ _) = _
      rw [ih, Text.hold_cons]
      simp

theorem readText_writeText (text : String) (start : Nat) (rest : List Char) :
    readText start [] (writeChars charset text.toList ++ '"' :: rest) = .ok (Text.held text, rest) :=
  readText_writeChars charset start [] text.toList rest

end Charset

/-! ### Writing held texts -/

theorem notMem_writeChar {c : Char} (hc : c ≠ Text.halfMark) : Text.halfMark ∉ writeChar .full c := by
  have hspelled := writeChar_spelled .full c
  generalize writeChar .full c = text at hspelled
  have hescape (unit : Nat) : Text.halfMark ∉ escapeUnit unit := fun hmem =>
    forall_mem_escapeUnit (· ≠ Text.halfMark) (by decide) (by decide) (by decide) unit _ hmem rfl
  cases hspelled with
  | @letter letter hletter _ _ =>
      have hne : letter ≠ Text.halfMark := by
        rintro rfl
        exact absurd hletter (by simp [unescape?, Text.halfMark])
      simp [hne.symm, show Text.halfMark ≠ '\\' by decide]
  | code _ => exact hescape _
  | halves _ => exact fun hmem => (List.mem_append.1 hmem).elim (hescape _) (hescape _)
  | self _ _ _ => simpa using Ne.symm hc

/-- Marks and their guards stand for themselves, so that a held text is written as the held form of what
is written for the text. -/
theorem writeChars_hold (text : List Char) :
    writeChars .full (Text.hold text) = Text.hold (writeChars .full text) := by
  induction text with
  | nil => rfl
  | cons c text ih =>
      have hchar : writeChars .full (Text.holdChar c) = Text.hold (writeChar .full c) := by
        by_cases hc : c = Text.halfMark
        · subst hc
          decide
        · rw [Text.holdChar_of_ne hc, Text.hold_of_notMem (notMem_writeChar hc)]
          simp [writeChars]
      rw [Text.hold_cons, writeChars, List.flatMap_append]
      show writeChars .full (Text.holdChar c) ++ writeChars .full (Text.hold text) = _
      rw [hchar, ih, ← Text.hold_append]
      rfl

theorem writeChar_of_le {c : Char} (hc : 0x80 ≤ c.toNat) : writeChar .full c = [c] := by
  have hne (other : Char) (hother : other.toNat < 0x80) : c ≠ other := by
    rintro rfl
    omega
  rw [writeChar, if_neg (hne _ (by decide)), if_neg (hne _ (by decide)), if_neg (hne _ (by decide)),
    if_neg (hne _ (by decide)), if_neg (hne _ (by decide)), if_neg (hne _ (by decide)), if_neg (hne _ (by decide)),
    if_neg (by omega)]

/-- A half stands for itself too. -/
theorem hasHalf_writeChars {text : List Char} (hhalf : Text.hasHalf text = true) :
    Text.hasHalf (writeChars .full text) = true := by
  fun_induction Text.hasHalf text with
  | case1 c d rest ih =>
      rw [Bool.or_eq_true] at hhalf
      rcases hhalf with hfirst | hrest
      · have hsome := hfirst
        rw [Text.halfOf?] at hsome
        split_ifs at hsome with hpair
        · obtain ⟨rfl, hlow, -⟩ := hpair
          have hmark : writeChar .full Text.halfMark = [Text.halfMark] := writeChar_of_le (by decide)
          have hcode : writeChar .full d = [d] := writeChar_of_le (by omega)
          rw [writeChars, List.flatMap_cons, List.flatMap_cons, hmark, hcode, List.cons_append, List.nil_append,
            List.cons_append, Text.hasHalf, hfirst, Bool.true_or]
        · cases hsome
      · rw [writeChars, List.flatMap_cons]
        exact Text.hasHalf_append_right _ (ih hrest)
  | case2 => cases hhalf

/-! ### Values that were read -/

theorem hexValue?_lt {c : Char} {value : Nat} (hvalue : hexValue? c = some value) : value < 16 := by
  unfold hexValue? at hvalue
  split_ifs at hvalue with hdigit hlower hupper
  · cases hvalue
    have hle : c.toNat ≤ 57 := hdigit.2
    omega
  · cases hvalue
    have hle : c.toNat ≤ 102 := hlower.2
    omega
  · cases hvalue
    have hle : c.toNat ≤ 70 := hupper.2
    omega

theorem hexQuad?_lt {a b c d : Char} {unit : Nat} (hquad : hexQuad? a b c d = some unit) :
    unit < 0x10000 := by
  simp only [hexQuad?, bind, Option.bind_eq_some_iff, pure, Option.some.injEq] at hquad
  obtain ⟨i, hi, j, hj, k, hk, l, hl, rfl⟩ := hquad
  have := hexValue?_lt hi
  have := hexValue?_lt hj
  have := hexValue?_lt hk
  have := hexValue?_lt hl
  omega

theorem toNat_ofNat_le (n : Nat) : (Char.ofNat n).toNat ≤ n := by
  by_cases hvalid : n.isValidChar
  · rw [Char.ofNat, dif_pos hvalid]
    exact Nat.le_refl n
  · rw [Char.ofNat, dif_neg hvalid]
    exact Nat.zero_le n

/-- An escape adds a held character or a half to a text. -/
theorem isHeld_append_unescapeUnit {unit used : Nat} {rest chars text : List Char} (hunit : unit < 0x10000)
    (hchars : unescapeUnit unit rest = .ok (chars, used)) (htext : Text.IsHeld text) :
    Text.IsHeld (text ++ chars) := by
  have hsingle : Text.IsHeld (text ++ unitChars unit) := by
    unfold unitChars
    split_ifs with hhalf
    · exact htext.half hhalf
    · have hne : Char.ofNat unit ≠ Text.halfMark := by
        intro heq
        have hle := toNat_ofNat_le unit
        rw [heq] at hle
        exact absurd (Nat.lt_of_le_of_lt hle hunit) (by decide)
      rw [← Text.holdChar_of_ne hne]
      exact htext.char _
  unfold unescapeUnit at hchars
  split_ifs at hchars
  · split at hchars
    · cases hchars
    · cases hchars
      exact hsingle
    · split_ifs at hchars
      · rw [← (Prod.mk.inj (Except.ok.inj hchars)).1]
        exact htext.char _
      · cases hchars
        exact hsingle
  · cases hchars
    exact hsingle

theorem readText_isHeld {start : Nat} {before text rest : List Char} {result : String}
    (hbefore : Text.IsHeld before.reverse) (hread : readText start before text = .ok (result, rest)) :
    Text.IsHeld result.toList := by
  fun_induction readText start before text with
  | case2 =>
      cases hread
      rwa [String.toList_ofList]
  | case7 before a b c d rest' _ unit hquad chars used hunit ih =>
      refine ih ?_ hread
      rw [List.reverse_append, List.reverse_reverse]
      exact isHeld_append_unescapeUnit (hexQuad?_lt hquad) hunit hbefore
  | case9 before c rest' _ _ letter hletter ih =>
      refine ih ?_ hread
      rw [List.reverse_cons, ← Text.holdChar_of_ne (ne_halfMark_of_lt (toNat_lt_of_unescape? hletter))]
      exact hbefore.char letter
  | case12 before c rest' _ _ _ _ _ _ ih =>
      refine ih ?_ hread
      rw [List.reverse_append, List.reverse_reverse]
      exact hbefore.char c
  | _ => cases hread

/-! ### What holds of all that is read -/

theorem forall_mem_put {good : Value → Prop} {fields : Fields} {name : String} {value : Value} (hvalue : good value)
    (hfields : ∀ field ∈ fields, good field.2) : ∀ field ∈ Fields.put fields name value, good field.2 := by
  induction fields with
  | nil => simpa [Fields.put] using hvalue
  | cons field fields ih =>
      rw [List.forall_mem_cons] at hfields
      rw [Fields.put]
      split_ifs
      · exact List.forall_mem_cons.2 ⟨hvalue, hfields.2⟩
      · exact List.forall_mem_cons.2 ⟨hfields.1, ih hfields.2⟩

/-- What holds of every value that is read: it holds of texts and numbers that are read, and of lists and tables
if it holds of all that is in them. -/
structure ReadClosed (good : Value → Prop) : Prop where
  null : good .null
  bool : ∀ b, good (.bool b)
  word : ∀ d ∈ [Decimal.undefined, .infinite false, .infinite true], good (.dec d)
  text : ∀ {start text rest result}, readText start [] text = .ok (result, rest) → good (.str result)
  number : ∀ {start negative text value rest}, readNumber start negative text = .ok (value, rest) → good value
  arr : ∀ {items}, (∀ item ∈ items, good item) → good (.arr items)
  obj : ∀ {fields : Fields}, (∀ field ∈ fields, good field.2) → good (.obj fields)

/-! The three readers call each other, each time with less fuel. -/

def ValuesRead (good : Value → Prop) (fuel : Nat) : Prop :=
  ∀ text value rest, readValue fuel text = .ok (value, rest) → good value

def ItemsRead (good : Value → Prop) (fuel : Nat) : Prop :=
  ∀ before text value rest, (∀ item ∈ before, good item) →
    readItems fuel before text = .ok (value, rest) → good value

def FieldsRead (good : Value → Prop) (fuel : Nat) : Prop :=
  ∀ before text value rest, (∀ field ∈ before, good field.2) →
    readFields fuel before text = .ok (value, rest) → good value

namespace ReadClosed

variable {good : Value → Prop} (hgood : ReadClosed good) {fuel : Nat}

include hgood

theorem values_succ (hitems : ItemsRead good fuel) (hfields : FieldsRead good fuel) : ValuesRead good (fuel + 1) := by
  intro text value rest hread
  unfold readValue at hread
  split at hread
  · rename_i after
    cases htext : readText ('"' :: after).length [] after with
    | error problem =>
        rw [htext] at hread
        cases hread
    | ok result =>
        rw [htext] at hread
        cases hread
        exact hgood.text htext
  · split at hread
    · cases hread
      exact hgood.obj (by simp)
    · exact hfields _ _ _ _ (by simp) hread
  · split at hread
    · cases hread
      exact hgood.arr (by simp)
    · exact hitems _ _ _ _ (by simp) hread
  · cases hread
    exact hgood.null
  · cases hread
    exact hgood.bool true
  · cases hread
    exact hgood.bool false
  · cases hread
    exact hgood.word _ (by simp)
  · cases hread
    exact hgood.word _ (by simp)
  · cases hread
    exact hgood.word _ (by simp)
  · exact hgood.number hread
  · exact hgood.number hread

theorem items_succ (hvalues : ValuesRead good fuel) (hitems : ItemsRead good fuel) : ItemsRead good (fuel + 1) := by
  intro before text value rest hbefore hread
  rw [readItems] at hread
  split at hread
  · cases hread
  · rename_i item after hitem
    have hmore : ∀ other ∈ item :: before, good other :=
      List.forall_mem_cons.2 ⟨hvalues _ _ _ hitem, hbefore⟩
    split at hread
    · cases hread
      exact hgood.arr fun other hother => hmore other (List.mem_reverse.1 hother)
    · exact hitems _ _ _ _ hmore hread
    · cases hread

theorem fields_succ (hvalues : ValuesRead good fuel) (hfields : FieldsRead good fuel) :
    FieldsRead good (fuel + 1) := by
  intro before text value rest hbefore hread
  unfold readFields at hread
  split at hread
  · split at hread
    · cases hread
    · rename_i name _ _
      split at hread
      · split at hread
        · cases hread
        · rename_i hvalue
          have hmore : ∀ field ∈ Fields.put before name _, good field.2 :=
            forall_mem_put (hvalues _ _ _ hvalue) hbefore
          split at hread
          · cases hread
            exact hgood.obj hmore
          · exact hfields _ _ _ _ hmore hread
          · cases hread
      · cases hread
  · cases hread

theorem reads (fuel : Nat) : ValuesRead good fuel ∧ ItemsRead good fuel ∧ FieldsRead good fuel := by
  induction fuel with
  | zero =>
      refine ⟨fun _ _ _ hread => ?_, fun _ _ _ _ _ hread => ?_, fun _ _ _ _ _ hread => ?_⟩
      all_goals cases hread
  | succ fuel ih =>
      obtain ⟨hvalues, hitems, hfields⟩ := ih
      exact ⟨hgood.values_succ hitems hfields, hgood.items_succ hvalues hitems, hgood.fields_succ hvalues hfields⟩

theorem of_read {text : String} {value : Value} (hread : Json.read text = .ok value) : good value := by
  rw [Json.read] at hread
  cases hchars : readChars text.toList with
  | error problem =>
      rw [hchars] at hread
      cases hread
  | ok found =>
      rw [hchars] at hread
      cases hread
      rw [readChars] at hchars
      split at hchars
      · cases hchars
      · split at hchars
        · cases hchars
        · rename_i hvalue
          split at hchars
          · cases hchars
            exact (hgood.reads _).1 _ _ _ hvalue
          · cases hchars

end ReadClosed

/-! ### Held values -/

/-- Every text in the value is made of held characters and halves. -/
inductive Held : Value → Prop
  | null : Held .null
  | bool (b : Bool) : Held (.bool b)
  | int (n : Int) : Held (.int n)
  | dec (d : Decimal) : Held (.dec d)
  | str {text : String} (htext : Text.IsHeld text.toList) : Held (.str text)
  | arr {items : List Value} (hitems : ∀ item ∈ items, Held item) : Held (.arr items)
  | obj {fields : Fields} (hfields : ∀ field ∈ fields, Held field.2) : Held (.obj fields)

/-- A number that is read is an integer spelled by digits that are not too many, or it has a point. -/
theorem readNumber_eq_ok {start text rest : List Char} {negative : Bool} {value : Value}
    (hread : readNumber start negative text = .ok (value, rest)) :
    (∃ whole, (∀ c ∈ whole, c.isDigit = true) ∧ whole.length ≤ Text.longestNumeral ∧
      value = .int (if negative then -(digitsValue whole : Int) else digitsValue whole)) ∨
    ∃ digits exponent, value = .dec (.ofDigits negative digits exponent) := by
  cases text with
  | nil => cases hread
  | cons c text =>
      rw [readNumber] at hread
      split at hread
      · cases hread
      · rename_i hdigit
        dsimp only at hread
        have hwhole : ∀ d ∈ (if c = '0' then [c] else c :: text.takeWhile Char.isDigit), d.isDigit = true := by
          have hc : c.isDigit = true := by simpa using hdigit
          split
          · exact List.forall_mem_singleton.2 hc
          · exact List.forall_mem_cons.2 ⟨hc, fun d => List.mem_takeWhile_imp⟩
        generalize (if c = '0' then [c] else c :: text.takeWhile Char.isDigit) = whole at hread hwhole
        generalize readFraction _ = fraction at hread
        generalize readExponent _ = exponent at hread
        split at hread
        · split at hread
          · cases hread
          · rename_i hshort
            cases hread
            exact .inl ⟨whole, hwhole, Nat.le_of_not_lt hshort, rfl⟩
        · cases hread
          exact .inr ⟨_, _, rfl⟩

theorem readNumber_held {start text rest : List Char} {negative : Bool} {value : Value}
    (hread : readNumber start negative text = .ok (value, rest)) : Held value := by
  rcases readNumber_eq_ok hread with ⟨whole, -, -, rfl⟩ | ⟨digits, exponent, rfl⟩
  · exact .int _
  · exact .dec _

theorem held_readClosed : ReadClosed Held where
  null := .null
  bool := .bool
  word := fun d _ => .dec d
  text := fun htext => .str (readText_isHeld (show Text.IsHeld ([] : List Char).reverse from .nil) htext)
  number := readNumber_held
  arr := .arr
  obj := .obj

theorem read_held {text : String} {value : Value} (hread : read text = .ok value) : Held value :=
  held_readClosed.of_read hread

end ProofDump.Json
