import Mathlib.Data.List.Basic
import ProofDump.Proofs.Json.Text
import ProofDump.Value.Writable

/-!
# Reading values back

A value without decimals whose integers are not too long is read back from the line that it was written on,
with its texts in their held form (`read_write`). What the argument needs to know about a way of writing texts
is only that texts are read back from it.
-/

namespace ProofDump

namespace Value

mutual

/-- The value with all its texts as they are held. Of fields with one name the first gives the place and the
last the value. -/
def held : Value → Value
  | str s => str (Text.held s)
  | arr items => arr (heldItems items)
  | obj fields => obj (heldFields [] fields)
  | other => other

def heldItems : List Value → List Value
  | [] => []
  | item :: rest => item.held :: heldItems rest

def heldFields (before : Fields) : List (String × Value) → Fields
  | [] => before
  | (name, value) :: rest => heldFields (Fields.put before (Text.held name) value.held) rest

end

/-- A value that can be read back from its written form. -/
inductive IsReadable : Value → Prop
  | null : IsReadable null
  | bool (b : Bool) : IsReadable (bool b)
  | int {n : Int} (hshort : isShort n = true) : IsReadable (int n)
  | str (s : String) : IsReadable (str s)
  | arr {items : List Value} (hitems : ∀ item ∈ items, IsReadable item) : IsReadable (arr items)
  | obj {fields : List (String × Value)} (hfields : ∀ field ∈ fields, IsReadable field.2) :
      IsReadable (obj fields)

theorem get?_cons (field : String × Value) (fields : Fields) (name : String) :
    Fields.get? (field :: fields) name = if name = field.1 then some field.2 else Fields.get? fields name := by
  rw [Fields.get?, List.lookup_cons]
  by_cases hname : name = field.1
  · rw [if_pos hname, beq_iff_eq.2 hname]
  · rw [if_neg hname, beq_eq_false_iff_ne.2 hname]
    rfl

theorem get?_put (fields : Fields) (name other : String) (value : Value) :
    Fields.get? (Fields.put fields name value) other =
      if other = name then some value else Fields.get? fields other := by
  induction fields with
  | nil => rw [Fields.put, get?_cons]
  | cons field fields ih =>
      rw [Fields.put]
      by_cases hfield : field.1 = name
      · rw [if_pos hfield, get?_cons, get?_cons, hfield]
        split <;> rfl
      · rw [if_neg hfield, get?_cons, get?_cons, ih]
        by_cases hother : other = field.1
        · rw [if_pos hother, if_pos hother, if_neg (hother ▸ hfield)]
        · rw [if_neg hother, if_neg hother]

theorem heldFields_append (before first second : Fields) :
    heldFields before (first ++ second) = heldFields (heldFields before first) second := by
  induction first generalizing before with
  | nil => rfl
  | cons field first ih => exact ih _

theorem get?_heldFields_of_notMem {before fields : Fields} {name : String}
    (hname : ∀ field ∈ fields, name ≠ Text.held field.1) :
    Fields.get? (heldFields before fields) name = Fields.get? before name := by
  induction fields generalizing before with
  | nil => rfl
  | cons field fields ih =>
      obtain ⟨hfield, hfields⟩ := List.forall_mem_cons.1 hname
      exact (ih hfields).trans ((get?_put before _ name _).trans (if_neg hfield))

theorem heldItems_eq_map (items : List Value) : heldItems items = items.map held := by
  induction items with
  | nil => rfl
  | cons item items ih => rw [heldItems, ih, List.map_cons]

end Value

namespace Json

/-! ### Integers -/

/-- The text cannot go on with a number. -/
def Closes (rest : List Char) : Prop :=
  ∀ c ∈ rest.head?, c.isDigit = false ∧ c ≠ '.' ∧ c ≠ 'e' ∧ c ≠ 'E'

theorem closes_cons (c : Char) (rest : List Char)
    (hc : c.isDigit = false ∧ c ≠ '.' ∧ c ≠ 'e' ∧ c ≠ 'E') : Closes (c :: rest) := by
  intro d hd
  cases hd
  exact hc

theorem digitsValue_toDigits (n : Nat) : digitsValue (Nat.toDigits 10 n) = n := by
  have hstep : (fun (total : Nat) (c : Char) => total * 10 + (c.toNat - 48)) =
      fun total c => 10 * total + (c.toNat - '0'.toNat) := by
    funext total c
    rw [Nat.mul_comm]
    rfl
  rw [digitsValue, hstep, ← Nat.ofDigitChars_eq_foldl, Nat.ofDigitChars_ten_toDigits]

theorem head?_toDigits {n : Nat} (hn : n ≠ 0) : (Nat.toDigits 10 n).head? ≠ some '0' := by
  induction n using Nat.strongRecOn with
  | ind n ih =>
      rw [Nat.toDigits_eq_if (by decide)]
      split
      · rename_i hlt
        have hdigits : ∀ digit < 10, digit ≠ 0 → digit.digitChar ≠ '0' := by decide
        intro hhead
        exact hdigits n hlt hn (Option.some.inj hhead)
      · rename_i hle
        rw [List.head?_append_of_ne_nil _ Nat.toDigits_ne_nil]
        exact ih (n / 10) (by omega) (by omega)

theorem readFraction_of_closes {rest : List Char} (hrest : Closes rest) : readFraction rest = ([], rest) := by
  unfold readFraction
  split
  · exact absurd rfl (hrest '.' rfl).2.1
  · rfl

theorem readExponent_of_closes {rest : List Char} (hrest : Closes rest) : readExponent rest = (none, rest) := by
  cases rest with
  | nil => rfl
  | cons c rest =>
      obtain ⟨-, -, hlower, hupper⟩ := hrest c rfl
      unfold readExponent
      exact if_neg (not_or.2 ⟨hlower, hupper⟩)

theorem takeWhile_digits {digits rest : List Char} (hdigits : ∀ c ∈ digits, c.isDigit = true)
    (hrest : Closes rest) :
    (digits ++ rest).takeWhile Char.isDigit = digits ∧ (digits ++ rest).dropWhile Char.isDigit = rest := by
  rw [List.takeWhile_append_of_pos hdigits, List.dropWhile_append_of_pos hdigits]
  cases rest with
  | nil => simp
  | cons c rest => simp [(hrest c rfl).1]

theorem readNumber_digits {n : Nat} (hshort : (Nat.toDigits 10 n).length ≤ Text.longestNumeral)
    (start : List Char) (negative : Bool) {rest : List Char} (hrest : Closes rest) :
    readNumber start negative (Nat.toDigits 10 n ++ rest) =
      .ok (.int (if negative then -n else n), rest) := by
  have hvalue := digitsValue_toDigits n
  have hall : ∀ c ∈ Nat.toDigits 10 n, c.isDigit = true := fun c hc =>
    Nat.isDigit_of_mem_toDigits (by decide) (by decide) hc
  obtain ⟨c, digits, hdigits⟩ := List.exists_cons_of_ne_nil (Nat.toDigits_ne_nil (n := n) (b := 10))
  rw [hdigits] at hvalue hall hshort ⊢
  obtain ⟨hc, hrestDigits⟩ := List.forall_mem_cons.1 hall
  obtain ⟨htake, hdrop⟩ := takeWhile_digits hrestDigits hrest
  -- A numeral starts with zero only if it is zero, so the reader takes all of its digits.
  have hwhole : (if c = '0' then [c] else c :: (digits ++ rest).takeWhile Char.isDigit) = c :: digits ∧
      (if c = '0' then digits ++ rest else (digits ++ rest).dropWhile Char.isDigit) = rest := by
    by_cases hzero : c = '0'
    · have hn : n = 0 := by
        by_contra hn
        exact head?_toDigits hn (by rw [hdigits, hzero]; rfl)
      rw [hn, Nat.toDigits_zero] at hdigits
      cases hdigits
      exact ⟨rfl, rfl⟩
    · rw [if_neg hzero, if_neg hzero, htake, hdrop]
      exact ⟨rfl, rfl⟩
  rw [List.cons_append, readNumber]
  simp only [hc, hwhole.1, hwhole.2, readFraction_of_closes hrest, readExponent_of_closes hrest, hvalue,
    Bool.not_true, Bool.false_eq_true, if_false, List.isEmpty_nil, Option.isNone_none, Bool.and_self, if_true,
    Nat.not_lt.2 hshort]

theorem write_int (charset : Charset) (n : Int) :
    write charset (.int n) =
      if n < 0 then '-' :: Nat.toDigits 10 n.natAbs else Nat.toDigits 10 n.natAbs := by
  cases n with
  | ofNat n => rw [if_neg (by simp)]; exact Nat.toList_repr
  | negSucc n =>
      rw [if_pos (Int.negSucc_lt_zero n)]
      show ("-" ++ Nat.repr (n + 1)).toList = _
      rw [String.toList_append, Nat.toList_repr]
      rfl

theorem readValue_digit (fuel : Nat) {c : Char} (hc : c.isDigit = true) (rest : List Char) :
    readValue (fuel + 1) (c :: rest) = readNumber (c :: rest) false (c :: rest) := by
  rw [readValue]
  all_goals
    intro other heq
    cases heq
    exact absurd hc (by decide)

theorem readValue_minus (fuel : Nat) {c : Char} (hc : c.isDigit = true) (rest : List Char) :
    readValue (fuel + 1) ('-' :: c :: rest) = readNumber ('-' :: c :: rest) true (c :: rest) := by
  rw [readValue]
  all_goals
    intro other heq
    cases heq
    exact absurd hc (by decide)

theorem readValue_int {charset : Charset} {n : Int} (hshort : Value.isShort n = true) {fuel : Nat}
    (hfuel : 0 < fuel) {rest : List Char} (hrest : Closes rest) :
    readValue fuel (write charset (.int n) ++ rest) = .ok (.int n, rest) := by
  obtain ⟨fuel, rfl⟩ := Nat.exists_eq_add_of_le' hfuel
  obtain ⟨c, digits, hdigits⟩ := List.exists_cons_of_ne_nil (Nat.toDigits_ne_nil (n := n.natAbs) (b := 10))
  have hc : c.isDigit = true :=
    Nat.isDigit_of_mem_toDigits (by decide) (by decide) (hdigits ▸ List.mem_cons_self)
  have hnumber (start : List Char) (negative : Bool) :=
    readNumber_digits (of_decide_eq_true hshort) start negative hrest
  rw [write_int]
  rw [hdigits] at hnumber ⊢
  split
  · rename_i hnegative
    rw [List.cons_append, List.cons_append, readValue_minus fuel hc, ← List.cons_append, hnumber, if_pos rfl]
    congr 3
    omega
  · rename_i hpositive
    rw [List.cons_append, readValue_digit fuel hc, ← List.cons_append, hnumber]
    congr 3
    simp only [Bool.false_eq_true, if_false]
    omega

/-! ### Values -/

/-- The value is read back wherever it is written. -/
def Reads (charset : Charset) (value : Value) : Prop :=
  ∀ ⦃fuel : Nat⦄ ⦃rest : List Char⦄, (write charset value).length < fuel → Closes rest →
    readValue fuel (write charset value ++ rest) = .ok (value.held, rest)

/-- A character that a value can start with. -/
def Opens (c : Char) : Prop := isGap c = false ∧ c ≠ ']' ∧ c ≠ '\ufeff'

instance : DecidablePred Opens := fun c =>
  inferInstanceAs (Decidable (isGap c = false ∧ c ≠ ']' ∧ c ≠ '\ufeff'))

theorem opens_of_isDigit {c : Char} (hc : c.isDigit = true) : Opens c := by
  have hne (other : Char) (hother : other.isDigit = false) : c ≠ other := by
    rintro rfl
    exact Bool.false_ne_true (hother.symm.trans hc)
  refine ⟨?_, hne _ (by decide), hne _ (by decide)⟩
  simp [isGap, hne ' ' (by decide), hne '\t' (by decide), hne '\n' (by decide), hne '\r' (by decide)]

theorem exists_write_eq_cons (charset : Charset) {value : Value} (hvalue : value.IsReadable) :
    ∃ c tail, write charset value = c :: tail ∧ Opens c := by
  cases hvalue with
  | null => exact ⟨'n', ['u', 'l', 'l'], rfl, by decide⟩
  | bool b =>
      cases b with
      | true => exact ⟨'t', ['r', 'u', 'e'], rfl, by decide⟩
      | false => exact ⟨'f', ['a', 'l', 's', 'e'], rfl, by decide⟩
  | @int n hshort =>
      rw [write_int]
      split
      · exact ⟨'-', _, rfl, by decide⟩
      · obtain ⟨c, digits, hdigits⟩ :=
          List.exists_cons_of_ne_nil (Nat.toDigits_ne_nil (n := n.natAbs) (b := 10))
        refine ⟨c, digits, hdigits, opens_of_isDigit ?_⟩
        exact Nat.isDigit_of_mem_toDigits (by decide) (by decide) (hdigits ▸ List.mem_cons_self)
  | str s => exact ⟨'"', _, rfl, by decide⟩
  | arr hitems => exact ⟨'[', _, by rw [write]; rfl, by decide⟩
  | obj hfields => exact ⟨'\x7b', _, by rw [write]; rfl, by decide⟩

theorem skipGaps_of_opens {c : Char} (hc : Opens c) (rest : List Char) : skipGaps (c :: rest) = c :: rest :=
  List.dropWhile_cons_of_neg (by rw [hc.1]; exact Bool.false_ne_true)

/-! ### Lists -/

theorem readValue_bracket {fuel : Nat} {c : Char} (hc : Opens c) (rest : List Char) :
    readValue (fuel + 1) ('[' :: c :: rest) = readItems fuel [] (c :: rest) := by
  rw [readValue, skipGaps_of_opens hc]
  split
  · rename_i heq
    exact absurd (List.cons.inj heq).1 hc.2.1
  · rfl

theorem exists_writeItems_eq_cons (charset : Charset) {item : Value} (hitem : item.IsReadable)
    (items : List Value) : ∃ c tail, writeItems charset (item :: items) = c :: tail ∧ Opens c := by
  obtain ⟨c, tail, hwrite, hc⟩ := exists_write_eq_cons charset hitem
  cases items with
  | nil => exact ⟨c, tail, by rw [writeItems, hwrite], hc⟩
  | cons next items =>
      refine ⟨c, tail ++ [',', ' '] ++ writeItems charset (next :: items), ?_, hc⟩
      rw [writeItems, hwrite]
      · rfl
      · exact List.cons_ne_nil _ _

theorem readItems_writeItems {charset : Charset} {item : Value} {items : List Value}
    (hreadable : ∀ value ∈ item :: items, value.IsReadable)
    (hreads : ∀ value ∈ item :: items, Reads charset value) {fuel : Nat}
    (hfuel : (writeItems charset (item :: items)).length + 1 < fuel) (before : List Value) (rest : List Char) :
    readItems fuel before (writeItems charset (item :: items) ++ ']' :: rest) =
      .ok (.arr (before.reverse ++ (item :: items).map Value.held), rest) := by
  induction items generalizing item fuel before with
  | nil =>
      obtain ⟨fuel, rfl⟩ : ∃ less, fuel = less + 1 := ⟨fuel - 1, by omega⟩
      rw [writeItems] at hfuel ⊢
      rw [readItems, hreads item List.mem_cons_self (by omega) (closes_cons ']' rest (by decide))]
      simp [skipGaps, isGap]
  | cons next items ih =>
      obtain ⟨fuel, rfl⟩ : ∃ less, fuel = less + 1 := ⟨fuel - 1, by omega⟩
      have hsplit : writeItems charset (item :: next :: items) =
          write charset item ++ [',', ' '] ++ writeItems charset (next :: items) := by
        rw [writeItems]
        exact List.cons_ne_nil _ _
      obtain ⟨c, tail, hnext, hc⟩ := exists_writeItems_eq_cons charset
        (hreadable next (List.mem_cons_of_mem _ List.mem_cons_self)) items
      have hlength : (writeItems charset (item :: next :: items)).length =
          (write charset item).length + 2 + (writeItems charset (next :: items)).length := by
        rw [hsplit, List.length_append, List.length_append]
        rfl
      have hitem : readValue fuel (write charset item ++ ',' :: ' ' ::
          (writeItems charset (next :: items) ++ ']' :: rest)) = .ok (item.held, ',' :: ' ' ::
            (writeItems charset (next :: items) ++ ']' :: rest)) :=
        hreads item List.mem_cons_self (by omega) (closes_cons ',' _ (by decide))
      have hgap : skipGaps (' ' :: (writeItems charset (next :: items) ++ ']' :: rest)) =
          writeItems charset (next :: items) ++ ']' :: rest := by
        rw [hnext]
        exact skipGaps_of_opens hc _
      have hcomma (text : List Char) : skipGaps (',' :: text) = ',' :: text := rfl
      rw [hsplit, readItems]
      simp only [List.append_assoc, List.cons_append, List.nil_append, hitem, hcomma, hgap]
      rw [ih (fun value hvalue => hreadable value (List.mem_cons_of_mem _ hvalue))
        (fun value hvalue => hreads value (List.mem_cons_of_mem _ hvalue)) (by omega)]
      simp

/-! ### Records -/

/-- A field as it is written. -/
def writeField (charset : Charset) (field : String × Value) : List Char :=
  writeText charset field.1 ++ [':', ' '] ++ write charset field.2

theorem writeFields_cons_cons (charset : Charset) (field next : String × Value) (fields : Fields) :
    writeFields charset (field :: next :: fields) =
      writeField charset field ++ [',', ' '] ++ writeFields charset (next :: fields) := by
  rw [writeFields]
  · rfl
  · exact List.cons_ne_nil _ _

theorem exists_writeFields_eq_cons (charset : Charset) (field : String × Value) (fields : Fields) :
    ∃ tail, writeFields charset (field :: fields) = '"' :: tail := by
  cases fields with
  | nil => exact ⟨_, by rw [writeFields]; rfl⟩
  | cons next fields => exact ⟨_, by rw [writeFields_cons_cons]; rfl⟩

theorem readValue_brace (fuel : Nat) (rest : List Char) :
    readValue (fuel + 1) ('\x7b' :: '"' :: rest) = readFields fuel [] ('"' :: rest) := by
  rw [readValue]
  rfl

section Field

variable {charset : Charset} {field : String × Value}
  (hreadable : field.2.IsReadable) (hreads : Reads charset field.2) {fuel : Nat}
  (hfuel : (writeField charset field).length < fuel)

include hreadable hreads hfuel

theorem readValue_writeField {rest : List Char} (hrest : Closes rest) :
    readValue fuel (skipGaps (' ' :: (write charset field.2 ++ rest))) = .ok (field.2.held, rest) := by
  obtain ⟨c, tail, hwrite, hc⟩ := exists_write_eq_cons charset hreadable
  have hgap : skipGaps (' ' :: (write charset field.2 ++ rest)) = write charset field.2 ++ rest := by
    rw [hwrite]
    exact skipGaps_of_opens hc _
  rw [writeField, List.length_append] at hfuel
  rw [hgap, hreads (by omega) hrest]

theorem readFields_last (before : Fields) (rest : List Char) :
    readFields (fuel + 1) before (writeField charset field ++ '\x7d' :: rest) =
      .ok (.obj (Fields.put before (Text.held field.1) field.2.held), rest) := by
  have hvalue := readValue_writeField hreadable hreads hfuel (closes_cons '\x7d' rest (by decide))
  have hcolon (text : List Char) : skipGaps (':' :: text) = ':' :: text := rfl
  have hbrace (text : List Char) : skipGaps ('\x7d' :: text) = '\x7d' :: text := rfl
  rw [writeField, writeText, readFields.eq_def]
  simp only [List.append_assoc, List.cons_append, List.nil_append, readText_writeText charset field.1, hcolon, hvalue, hbrace]

theorem readFields_more (before : Fields) (rest : List Char) :
    readFields (fuel + 1) before (writeField charset field ++ ',' :: rest) =
      readFields fuel (Fields.put before (Text.held field.1) field.2.held) (skipGaps rest) := by
  have hvalue := readValue_writeField hreadable hreads hfuel (closes_cons ',' rest (by decide))
  have hcolon (text : List Char) : skipGaps (':' :: text) = ':' :: text := rfl
  have hcomma (text : List Char) : skipGaps (',' :: text) = ',' :: text := rfl
  rw [writeField, writeText, readFields.eq_def]
  simp only [List.append_assoc, List.cons_append, List.nil_append, readText_writeText charset field.1, hcolon, hvalue, hcomma]

end Field

theorem readFields_writeFields {charset : Charset} {field : String × Value}
    {fields : Fields} (hreadable : ∀ entry ∈ field :: fields, entry.2.IsReadable)
    (hreads : ∀ entry ∈ field :: fields, Reads charset entry.2) {fuel : Nat}
    (hfuel : (writeFields charset (field :: fields)).length + 1 < fuel) (before : Fields) (rest : List Char) :
    readFields fuel before (writeFields charset (field :: fields) ++ '\x7d' :: rest) =
      .ok (.obj (Value.heldFields before (field :: fields)), rest) := by
  obtain ⟨fuel, rfl⟩ : ∃ less, fuel = less + 1 := ⟨fuel - 1, by omega⟩
  have hfirst := hreadable field List.mem_cons_self
  have hreadsFirst := hreads field List.mem_cons_self
  induction fields generalizing field before fuel with
  | nil =>
      have hwritten : writeFields charset [field] = writeField charset field := by rw [writeFields]; rfl
      rw [hwritten] at hfuel ⊢
      exact readFields_last hfirst hreadsFirst (by omega) before rest
  | cons next fields ih =>
      have hgap : skipGaps (' ' :: (writeFields charset (next :: fields) ++ '\x7d' :: rest)) =
          writeFields charset (next :: fields) ++ '\x7d' :: rest := by
        obtain ⟨tail, hwrite⟩ := exists_writeFields_eq_cons charset next fields
        rw [hwrite]
        rfl
      rw [writeFields_cons_cons] at hfuel ⊢
      simp only [List.length_append, List.length_cons, List.length_nil] at hfuel
      obtain ⟨less, rfl⟩ : ∃ less, fuel = less + 1 := ⟨fuel - 1, by omega⟩
      simp only [List.append_assoc, List.cons_append, List.nil_append]
      rw [readFields_more hfirst hreadsFirst (by omega), hgap,
        ih (fun entry hentry => hreadable entry (List.mem_cons_of_mem _ hentry))
          (fun entry hentry => hreads entry (List.mem_cons_of_mem _ hentry)) _ _ (by omega)
          (hreadable next (List.mem_cons_of_mem _ List.mem_cons_self))
          (hreads next (List.mem_cons_of_mem _ List.mem_cons_self))]
      rfl

/-! ### Reading back -/

theorem reads_of_isReadable {charset : Charset} {value : Value} (hvalue : value.IsReadable) :
    Reads charset value := by
  induction hvalue with
  | null =>
      intro fuel rest hfuel hrest
      obtain ⟨fuel, rfl⟩ : ∃ less, fuel = less + 1 := ⟨fuel - 1, by omega⟩
      rfl
  | bool b =>
      intro fuel rest hfuel hrest
      obtain ⟨fuel, rfl⟩ : ∃ less, fuel = less + 1 := ⟨fuel - 1, by omega⟩
      cases b <;> rfl
  | int hshort =>
      intro fuel rest hfuel hrest
      exact readValue_int hshort (by omega) hrest
  | str s =>
      intro fuel rest hfuel hrest
      obtain ⟨fuel, rfl⟩ : ∃ less, fuel = less + 1 := ⟨fuel - 1, by omega⟩
      rw [write, writeText, Value.held]
      simp only [List.append_assoc, List.cons_append, List.nil_append]
      rw [readValue, readText_writeText]
      rfl
  | @arr items hitems ih =>
      intro fuel rest hfuel hrest
      obtain ⟨fuel, rfl⟩ : ∃ less, fuel = less + 1 := ⟨fuel - 1, by omega⟩
      cases items with
      | nil => rfl
      | cons item items =>
          obtain ⟨c, tail, hwrite, hc⟩ := exists_writeItems_eq_cons charset (hitems item List.mem_cons_self) items
          rw [write, List.length_append, List.length_cons, List.length_singleton] at hfuel
          have hread : readItems fuel [] (writeItems charset (item :: items) ++ ']' :: rest) =
              .ok (.arr ((item :: items).map Value.held), rest) :=
            readItems_writeItems hitems ih (by omega) [] rest
          rw [write, Value.held, Value.heldItems_eq_map, ← hread, hwrite]
          simp only [List.append_assoc, List.cons_append, List.nil_append, readValue_bracket hc]
  | @obj fields hfields ih =>
      intro fuel rest hfuel hrest
      obtain ⟨fuel, rfl⟩ : ∃ less, fuel = less + 1 := ⟨fuel - 1, by omega⟩
      cases fields with
      | nil => rfl
      | cons field fields =>
          obtain ⟨tail, hwrite⟩ := exists_writeFields_eq_cons charset field fields
          rw [write, List.length_append, List.length_cons, List.length_singleton] at hfuel
          have hread : readFields fuel [] (writeFields charset (field :: fields) ++ '\x7d' :: rest) =
              .ok (.obj (Value.heldFields [] (field :: fields)), rest) :=
            readFields_writeFields hfields ih (by omega) [] rest
          rw [write, Value.held, ← hread, hwrite]
          simp only [List.append_assoc, List.cons_append, List.nil_append, readValue_brace]

theorem closes_of_gaps {gaps : List Char} (hgaps : ∀ c ∈ gaps, isGap c = true) : Closes gaps := by
  intro c hc
  have hgap := hgaps c (List.mem_of_head? hc)
  simp only [isGap, Bool.or_eq_true, decide_eq_true_eq] at hgap
  rcases hgap with ((rfl | rfl) | rfl) | rfl <;> decide

theorem readChars_write (charset : Charset) {value : Value} (hvalue : value.IsReadable) {gaps : List Char}
    (hgaps : ∀ c ∈ gaps, isGap c = true) : readChars (write charset value ++ gaps) = .ok value.held := by
  obtain ⟨c, tail, hwrite, hc⟩ := exists_write_eq_cons charset hvalue
  have hread : readValue (2 * (write charset value ++ gaps).length + 2) (write charset value ++ gaps) =
      .ok (value.held, gaps) := by
    refine reads_of_isReadable hvalue ?_ (closes_of_gaps hgaps)
    rw [List.length_append]
    omega
  have hhead : (write charset value ++ gaps).head? ≠ some '\ufeff' := by
    rw [hwrite]
    exact fun heq => hc.2.2 (Option.some.inj heq)
  have hgap : skipGaps (write charset value ++ gaps) = write charset value ++ gaps := by
    rw [hwrite]
    exact skipGaps_of_opens hc _
  have hend : skipGaps gaps = [] := List.dropWhile_eq_nil_iff.2 hgaps
  rw [readChars, if_neg hhead, hgap, hread]
  simp only [hend]

theorem read_write_append (charset : Charset) {value : Value} (hvalue : value.IsReadable) {gaps : List Char}
    (hgaps : ∀ c ∈ gaps, isGap c = true) :
    read (String.ofList (write charset value ++ gaps)) = .ok value.held := by
  rw [read, String.toList_ofList, readChars_write charset hvalue hgaps]
  rfl

theorem read_write (charset : Charset) {value : Value} (hvalue : value.IsReadable) :
    read (String.ofList (write charset value)) = .ok value.held := by
  have hread := read_write_append charset hvalue (List.forall_mem_nil _)
  rwa [List.append_nil] at hread

/-! ### Objects of texts -/

/-- Fields with texts as their values. -/
def textFields (fields : List (String × String)) : Fields := fields.map fun field => (field.1, .str field.2)

/-- The fields that are read where these were written, after the ones before. -/
def readBack (before : Fields) (fields : List (String × String)) : Fields :=
  fields.foldl (fun before field => Fields.put before (Text.held field.1) (.str (Text.held field.2))) before

theorem heldFields_textFields (before : Fields) (fields : List (String × String)) :
    Value.heldFields before (textFields fields) = readBack before fields := by
  induction fields generalizing before with
  | nil => rfl
  | cons field fields ih => exact ih _

theorem read_textObject (fields : List (String × String)) :
    read (line (.obj (textFields fields)) ++ "\n") = .ok (.obj (readBack [] fields)) := by
  have hreadable : (Value.obj (textFields fields)).IsReadable := by
    refine .obj fun field hfield => ?_
    obtain ⟨pair, -, rfl⟩ := List.mem_map.1 hfield
    exact .str pair.2
  have hread := readChars_write .full hreadable (List.forall_mem_singleton.2 (show isGap '\n' = true from rfl))
  rw [read, String.toList_append, line, String.toList_ofList]
  show (readChars (write .full (.obj (textFields fields)) ++ ['\n'])).mapError _ = _
  rw [hread, Value.held, heldFields_textFields]
  rfl

end Json

end ProofDump
