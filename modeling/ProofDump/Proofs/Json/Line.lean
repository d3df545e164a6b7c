import Mathlib.Data.List.Basic
import ProofDump.Json.Printer
import ProofDump.Json.Reader
import ProofDump.Proofs.Text.Lines

/-!
# A value on one line

No control character stands in a written value, so it is one line however many line ends there are in its
texts. `lines_text` is what readers of a file of such lines rely on.
-/

namespace ProofDump.Json

/-- The character is no control character. -/
def Visible (c : Char) : Prop := 0x20 ≤ c.toNat

instance (c : Char) : Decidable (Visible c) := inferInstanceAs (Decidable (_ ≤ _))

theorem visible_of_all {text : List Char} (htext : (text.all fun c => decide (Visible c)) = true) :
    ∀ c ∈ text, Visible c :=
  fun c hc => of_decide_eq_true (List.all_eq_true.1 htext c hc)

theorem visible_of_isDigit {c : Char} (hc : c.isDigit = true) : Visible c := by
  simp only [Char.isDigit, Bool.and_eq_true, decide_eq_true_eq] at hc
  have hlow : 48 ≤ c.toNat := hc.1
  exact Nat.le_trans (by decide) hlow

theorem visible_of_mem_digits {n : Nat} : ∀ c ∈ Nat.toDigits 10 n, Visible c :=
  fun _ hc => visible_of_isDigit (Nat.isDigit_of_mem_toDigits (by decide) (by decide) hc)

/-! ### Texts -/

/-- A character is written as a backslash and a letter, as the escape of its code or of its two halves, or as
it is. -/
inductive Spelled (c : Char) : List Char → Prop
  | letter {letter : Char} (hletter : unescape? letter = some c) (hvisible : Visible letter)
      (hu : letter ≠ 'u') : Spelled c ['\\', letter]
  | code (hunit : c.toNat < 0x10000) : Spelled c (escapeUnit c.toNat)
  | halves (hbeyond : 0x10000 ≤ c.toNat) :
      Spelled c (escapeUnit (0xD800 + (c.toNat - 0x10000) / 0x400) ++
        escapeUnit (0xDC00 + (c.toNat - 0x10000) % 0x400))
  | self (hvisible : Visible c) (hquote : c ≠ '"') (hbackslash : c ≠ '\\') : Spelled c [c]

theorem writeChar_spelled (charset : Charset) (c : Char) : Spelled c (writeChar charset c) := by
  simp only [writeChar]
  by_cases hquote : c = '"'
  · subst hquote
    exact .letter rfl (by decide) (by decide)
  rw [if_neg hquote]
  by_cases hbackslash : c = '\\'
  · subst hbackslash
    exact .letter rfl (by decide) (by decide)
  rw [if_neg hbackslash]
  have hself (hcontrol : ¬ c.toNat < 0x20) : Spelled c [c] :=
    .self (Nat.le_of_not_lt hcontrol) hquote hbackslash
  split_ifs with hfeed hreturn htab hbell hpage hcontrol hascii hunit
  · subst hfeed
    exact .letter rfl (by decide) (by decide)
  · subst hreturn
    exact .letter rfl (by decide) (by decide)
  · subst htab
    exact .letter rfl (by decide) (by decide)
  · subst hbell
    exact .letter rfl (by decide) (by decide)
  · subst hpage
    exact .letter rfl (by decide) (by decide)
  · exact .code (Nat.lt_trans hcontrol (by decide))
  · cases charset with
    | full => exact hself hcontrol
    | plain => exact hself hcontrol
  · cases charset with
    | full => exact hself hcontrol
    | plain => exact .code hunit
  · cases charset with
    | full => exact hself hcontrol
    | plain => exact .halves (Nat.le_of_not_lt hunit)

theorem mem_hexadecimal {width n : Nat} {c : Char} (hc : c ∈ Text.hexadecimal width n) :
    ∃ digit < 16, c = digit.digitChar := by
  rcases List.mem_append.1 hc with hzero | hdigit
  · exact ⟨0, by decide, List.eq_of_mem_replicate hzero⟩
  · induction n using Nat.strongRecOn with
    | ind n ih =>
        rw [Nat.toDigits_eq_if (by decide)] at hdigit
        split at hdigit
        · exact ⟨n, by assumption, List.mem_singleton.1 hdigit⟩
        · rcases List.mem_append.1 hdigit with hfront | hlast
          · exact ih (n / 16) (by omega) (List.mem_append_right _ hfront) hfront
          · exact ⟨n % 16, Nat.mod_lt n (by decide), List.mem_singleton.1 hlast⟩

/-- What is true of the letters and digits of escapes is true of all characters of an escape. -/
theorem forall_mem_escapeUnit (holds : Char → Prop) (hbackslash : holds '\\') (hu : holds 'u')
    (hdigits : ∀ digit < 16, holds digit.digitChar) (unit : Nat) : ∀ c ∈ escapeUnit unit, holds c := by
  intro c hc
  rcases List.mem_append.1 hc with hmark | hdigit
  · rcases List.mem_cons.1 hmark with rfl | hmark
    · exact hbackslash
    · rwa [List.mem_singleton.1 hmark]
  · obtain ⟨digit, hlt, rfl⟩ := mem_hexadecimal hdigit
    exact hdigits digit hlt

theorem escapeUnit_visible (unit : Nat) : ∀ c ∈ escapeUnit unit, Visible c :=
  forall_mem_escapeUnit Visible (by decide) (by decide) (by decide) unit

theorem writeChar_visible (charset : Charset) (c : Char) : ∀ d ∈ writeChar charset c, Visible d := by
  have hspelled := writeChar_spelled charset c
  generalize writeChar charset c = text at hspelled
  cases hspelled with
  | letter hletter hvisible hu =>
      intro d hd
      rcases List.mem_cons.1 hd with rfl | hd
      · decide
      · rwa [List.mem_singleton.1 hd]
  | code hunit => exact escapeUnit_visible _
  | halves hbeyond => exact List.forall_mem_append.2 ⟨escapeUnit_visible _, escapeUnit_visible _⟩
  | self hvisible hquote hbackslash =>
      intro d hd
      rwa [List.mem_singleton.1 hd]

theorem writeText_visible (charset : Charset) (text : String) : ∀ c ∈ writeText charset text, Visible c := by
  intro c hc
  simp only [writeText, writeChars, List.mem_append, List.mem_cons, List.mem_flatMap,
    List.not_mem_nil, or_false] at hc
  rcases hc with (rfl | ⟨d, -, hd⟩) | rfl
  · decide
  · exact writeChar_visible charset d c hd
  · decide

/-! ### Numbers -/

theorem toString_int_visible (n : Int) : ∀ c ∈ (toString n).toList, Visible c := by
  cases n with
  | ofNat m =>
      show ∀ c ∈ m.repr.toList, Visible c
      rw [Nat.toList_repr]
      exact visible_of_mem_digits
  | negSucc m =>
      show ∀ c ∈ ("-" ++ m.succ.repr).toList, Visible c
      rw [String.toList_append, Nat.toList_repr, List.forall_mem_append]
      exact ⟨visible_of_all rfl, visible_of_mem_digits⟩

theorem positional_visible {digits : List Char} (hdigits : ∀ c ∈ digits, Visible c) (point : Int) :
    ∀ c ∈ Decimal.positional digits point, Visible c := by
  have hzeros (count : Nat) : ∀ c ∈ List.replicate count '0', Visible c := by
    intro c hc
    rw [List.eq_of_mem_replicate hc]
    decide
  unfold Decimal.positional
  split_ifs with hfirst hlast
  · simp only [List.forall_mem_append]
    exact ⟨⟨visible_of_all rfl, hzeros _⟩, hdigits⟩
  · simp only [List.forall_mem_append]
    exact ⟨⟨hdigits, hzeros _⟩, visible_of_all rfl⟩
  · simp only [List.forall_mem_append]
    exact ⟨⟨fun c hc => hdigits c (List.mem_of_mem_take hc), visible_of_all rfl⟩,
      fun c hc => hdigits c (List.mem_of_mem_drop hc)⟩

theorem scientific_visible {digits : List Char} (hdigits : ∀ c ∈ digits, Visible c) (point : Int) :
    ∀ c ∈ Decimal.scientific digits point, Visible c := by
  have hpower : ∀ c ∈ (if (Nat.toDigits 10 (point - 1).natAbs).length < 2 then
      '0' :: Nat.toDigits 10 (point - 1).natAbs else Nat.toDigits 10 (point - 1).natAbs), Visible c := by
    split_ifs
    · exact List.forall_mem_cons.2 ⟨by decide, visible_of_mem_digits⟩
    · exact visible_of_mem_digits
  have hmark : ∀ c ∈ ['e', if point - 1 < 0 then '-' else '+'], Visible c := by
    split_ifs <;> exact visible_of_all rfl
  unfold Decimal.scientific
  simp only [List.forall_mem_append]
  refine ⟨⟨?_, hmark⟩, hpower⟩
  match digits, hdigits with
  | [], _ => simp
  | [_], hdigits => exact hdigits
  | first :: second :: rest, hdigits =>
      rw [List.forall_mem_cons] at hdigits
      exact List.forall_mem_cons.2 ⟨hdigits.1, List.forall_mem_cons.2 ⟨by decide, hdigits.2⟩⟩

theorem finite_text_visible (negative : Bool) (size : Size) :
    ∀ c ∈ (Decimal.finite negative size).text.toList, Visible c := by
  have hbody (body : List Char) (hvisible : ∀ c ∈ body, Visible c) :
      ∀ c ∈ (if negative then '-' :: body else body), Visible c := by
    split_ifs
    · exact List.forall_mem_cons.2 ⟨by decide, hvisible⟩
    · exact hvisible
  rw [Decimal.text, String.toList_ofList]
  refine hbody _ ?_
  split_ifs
  · exact visible_of_all rfl
  · exact positional_visible visible_of_mem_digits _
  · exact scientific_visible visible_of_mem_digits _

theorem writeDecimal_visible (number : Decimal) : ∀ c ∈ writeDecimal number, Visible c := by
  cases number with
  | finite negative size => exact finite_text_visible negative size
  | infinite negative => cases negative <;> exact visible_of_all rfl
  | undefined => exact visible_of_all rfl

/-! ### Values -/

section Values

variable (charset : Charset)

mutual

theorem write_visible : ∀ value : Value, ∀ c ∈ write charset value, Visible c
  | .null => visible_of_all rfl
  | .bool true => visible_of_all rfl
  | .bool false => visible_of_all rfl
  | .int n => toString_int_visible n
  | .dec number => writeDecimal_visible number
  | .str text => writeText_visible charset text
  | .arr items => by
      simp only [write, List.forall_mem_append, List.forall_mem_cons]
      exact ⟨⟨by decide, writeItems_visible items⟩, by decide, visible_of_all rfl⟩
  | .obj fields => by
      simp only [write, List.forall_mem_append, List.forall_mem_cons]
      exact ⟨⟨by decide, writeFields_visible fields⟩, by decide, visible_of_all rfl⟩

theorem writeItems_visible : ∀ items : List Value, ∀ c ∈ writeItems charset items, Visible c
  | [] => by simp [writeItems]
  | [item] => write_visible item
  | item :: next :: rest => by
      simp only [writeItems, List.forall_mem_append]
      exact ⟨⟨write_visible item, visible_of_all rfl⟩, writeItems_visible (next :: rest)⟩

theorem writeFields_visible :
    ∀ fields : List (String × Value), ∀ c ∈ writeFields charset fields, Visible c
  | [] => by simp [writeFields]
  | [(name, value)] => by
      simp only [writeFields, List.forall_mem_append]
      exact ⟨⟨writeText_visible charset name, visible_of_all rfl⟩, write_visible value⟩
  | (name, value) :: next :: rest => by
      simp only [writeFields, List.forall_mem_append]
      exact ⟨⟨⟨⟨writeText_visible charset name, visible_of_all rfl⟩, write_visible value⟩, visible_of_all rfl⟩,
        writeFields_visible (next :: rest)⟩

end

theorem newline_notMem_write (value : Value) : '\n' ∉ write charset value :=
  fun hmem => absurd (write_visible charset value _ hmem) (by decide)

end Values

/-! ### Files of lines -/

/-- The text of records on lines of their own. -/
def text (records : List Value) : String := String.join (records.map fun record => line record ++ "\n")

theorem toList_text (records : List Value) :
    (text records).toList = (records.map (write .full)).flatMap (· ++ ['\n']) := by
  rw [text, String.toList_join, List.flatMap_map, List.flatMap_map]
  simp only [line, String.toList_append, String.toList_ofList]
  rfl

/-- Every record is one line of the text. -/
theorem lines_text (records : List Value) :
    Text.lines (text records).toList = records.map fun record => (line record ++ "\n").toList := by
  have hparts : ∀ part ∈ records.map (write .full), '\n' ∉ part := by
    intro part hpart
    obtain ⟨record, -, rfl⟩ := List.mem_map.1 hpart
    exact newline_notMem_write .full record
  rw [toList_text, Text.lines_flatMap hparts, List.map_map]
  simp only [line, String.toList_append, String.toList_ofList]
  rfl

/-- The text is read from a file as it was written. -/
theorem fileText_text (records : List Value) : Text.fileText (text records) = (text records).toList := by
  refine Text.unifyLineEnds_of_notMem ?_
  rw [toList_text, List.mem_flatMap]
  rintro ⟨part, hpart, hmem⟩
  obtain ⟨record, -, rfl⟩ := List.mem_map.1 hpart
  rcases List.mem_append.1 hmem with hmem | hmem
  · exact absurd (write_visible .full record _ hmem) (by decide)
  · exact absurd hmem (by decide)

end ProofDump.Json
