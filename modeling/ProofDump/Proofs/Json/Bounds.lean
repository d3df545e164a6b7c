import Mathlib.Data.List.Basic
import Mathlib.Data.Nat.Digits.Lemmas
import ProofDump.Proofs.Json.Text
import ProofDump.Value.Integer
import ProofDump.Value.Writable

/-!
# Sizes of numbers that are read

An integer of a text has no more digits than numerals may have, and a number with a point is far below the largest
such integer. So all integers that a value which was read can come to have numerals (`read_bounded`).
-/

namespace ProofDump

/-! ### Numerals -/

theorem Value.isShort_iff {n : Int} : isShort n = true ↔ n.natAbs < 10 ^ Text.longestNumeral := by
  rw [isShort, decide_eq_true_iff]
  exact Nat.length_toDigits_le_iff (by decide) (by decide)

theorem Json.digitsValue_lt {digits : List Char} (hdigits : ∀ c ∈ digits, c.isDigit = true) :
    digitsValue digits < 10 ^ digits.length := by
  have hfold (total : Nat) : digits.foldl (fun total c => total * 10 + (c.toNat - 48)) total <
      (total + 1) * 10 ^ digits.length := by
    induction digits generalizing total with
    | nil => simp
    | cons c digits ih =>
        obtain ⟨hc, hdigits⟩ := List.forall_mem_cons.1 hdigits
        have hvalue : c.toNat ≤ 57 := by
          rw [Char.isDigit, Bool.and_eq_true, decide_eq_true_iff, decide_eq_true_iff] at hc
          exact hc.2
        rw [List.foldl_cons, List.length_cons, Nat.pow_succ', ← Nat.mul_assoc]
        exact (ih hdigits _).trans_le (Nat.mul_le_mul_right _ (by omega))
  have hzero := hfold 0
  rwa [Nat.zero_add, Nat.one_mul] at hzero

namespace Text

theorem digitValue?_le {c : Char} {value : Nat} (hvalue : digitValue? c = some value) : value ≤ 9 := by
  obtain ⟨start, hstart, rfl⟩ := Option.map_eq_some_iff.1 hvalue
  have hwithin := List.find?_some hstart
  rw [Bool.and_eq_true, decide_eq_true_iff, decide_eq_true_iff] at hwithin
  omega

theorem readDigits_lt {total : Nat} {afterDigit : Bool} {digits : List Char} {n : Nat}
    (hread : readDigits total afterDigit digits = some n) :
    n < (total + 1) * 10 ^ digits.countP (· ≠ '_') := by
  induction digits generalizing total afterDigit with
  | nil =>
      rw [readDigits] at hread
      split at hread
      · cases hread
        simp
      · cases hread
  | cons c digits ih =>
      rw [readDigits] at hread
      split at hread
      · rename_i hc
        split at hread
        · rw [List.countP_cons_of_neg (by simpa using hc)]
          exact ih hread
        · cases hread
      · rename_i hc
        split at hread
        · rename_i value hvalue
          have hdigit := digitValue?_le hvalue
          rw [List.countP_cons_of_pos (by simpa using hc), Nat.pow_succ', ← Nat.mul_assoc]
          exact (ih hread).trans_le (Nat.mul_le_mul_right _ (by omega))
        · cases hread

theorem natural?_lt {digits : List Char} {n : Nat} (hnatural : natural? digits = some n) :
    n < 10 ^ longestNumeral := by
  rw [natural?] at hnatural
  split at hnatural
  · cases hnatural
  · rename_i hshort
    have hlt := readDigits_lt hnatural
    rw [isLong, decide_eq_true_iff, Nat.not_lt] at hshort
    rw [Nat.zero_add, Nat.one_mul] at hlt
    exact hlt.trans_le (Nat.pow_le_pow_right (by decide) hshort)

theorem isShort_of_integer? {text : String} {n : Int} (hinteger : integer? text = some n) :
    Value.isShort n = true := by
  rw [Value.isShort_iff]
  rw [integer?] at hinteger
  split at hinteger
  all_goals
    obtain ⟨_, hsize, rfl⟩ := Option.map_eq_some_iff.1 hinteger
    obtain ⟨size, hnatural, hsize⟩ := Option.bind_eq_some_iff.1 hsize
    cases hsize
    simpa using natural?_lt hnatural

end Text

/-! ### Numbers with a point -/

namespace Size

theorem roundedQuotient_le (numerator denominator : Nat) :
    roundedQuotient numerator denominator ≤ numerator / denominator + 1 := by
  unfold roundedQuotient
  dsimp only
  split <;> omega

theorem scaled_of_nonneg (base numerator denominator : Nat) {power : Int} (hpower : 0 ≤ power) :
    scaled base numerator denominator power = (numerator, denominator * base ^ power.toNat) := if_pos hpower

theorem scaled_of_neg (base numerator denominator : Nat) {power : Int} (hpower : power < 0) :
    scaled base numerator denominator power = (numerator * base ^ (-power).toNat, denominator) :=
  if_neg (Int.not_le.2 hpower)

/-- The integer part of a size is not more than what its multiple comes to at the power, if that is no fraction. -/
theorem quotient_le (size : Size) : size.quotient.1 / size.quotient.2 ≤ size.multiple * 2 ^ size.power.toNat := by
  rw [quotient]
  by_cases hsign : 0 ≤ -size.power
  · rw [scaled_of_nonneg 2 _ _ hsign]
    exact (Nat.div_le_self _ _).trans (Nat.le_mul_of_pos_right _ (Nat.two_pow_pos _))
  · rw [scaled_of_neg 2 _ _ (Int.not_le.1 hsign), Int.neg_neg, Nat.div_one]

theorem ofMultiple?_eq_some {multiple : Nat} {power : Int} {size : Size}
    (hsize : ofMultiple? multiple power = some size) :
    power ≤ 971 ∧ size.multiple * 2 ^ size.power.toNat ≤ multiple * 2 ^ power.toNat := by
  by_cases hmultiple : multiple = multipleBound
  · simp only [ofMultiple?, if_pos hmultiple] at hsize
    split at hsize
    · cases hsize
    · rename_i hpower
      cases hsize
      have hexponent : (power + 1).toNat ≤ power.toNat + 1 := by omega
      refine ⟨by omega, ?_⟩
      calc multipleBound / 2 * 2 ^ (power + 1).toNat
          ≤ multipleBound / 2 * 2 ^ (power.toNat + 1) :=
            Nat.mul_le_mul_left _ (Nat.pow_le_pow_right (by decide) hexponent)
        _ = multiple * 2 ^ power.toNat := by
            rw [Nat.pow_succ', ← Nat.mul_assoc, hmultiple]
            rfl
  · simp only [ofMultiple?, if_neg hmultiple] at hsize
    split at hsize
    · cases hsize
    · rename_i hpower
      cases hsize
      exact ⟨by omega, Nat.le_refl _⟩

theorem nearest?_le {numerator denominator powers : Nat} {size : Size} (hdenominator : 0 < denominator)
    (hpowers : 1074 ≤ powers) (hsize : nearest? numerator denominator = some size) :
    size.multiple * 2 ^ size.power.toNat ≤ (numerator / denominator + 1) * 2 ^ powers := by
  by_cases hzero : numerator = 0
  · rw [nearest?, if_pos hzero] at hsize
    cases hsize
    rw [zero, Nat.zero_mul]
    exact Nat.zero_le _
  · have hleast : leastPower ≤ powerFor numerator denominator := Int.le_max_left _ _
    simp only [nearest?, if_neg hzero] at hsize
    generalize powerFor numerator denominator = power at hsize hleast
    rw [leastPower] at hleast
    by_cases hsign : 0 ≤ power
    · rw [scaled_of_nonneg 2 _ _ hsign] at hsize
      obtain ⟨hmost, hmultiple⟩ := ofMultiple?_eq_some hsize
      refine hmultiple.trans ((Nat.mul_le_mul_right _ (roundedQuotient_le _ _)).trans ?_)
      rw [← Nat.div_div_eq_div_mul]
      calc (numerator / denominator / 2 ^ power.toNat + 1) * 2 ^ power.toNat
          ≤ (numerator / denominator + 1) * 2 ^ power.toNat :=
            Nat.mul_le_mul_right _ (Nat.succ_le_succ (Nat.div_le_self _ _))
        _ ≤ (numerator / denominator + 1) * 2 ^ powers :=
            Nat.mul_le_mul_left _ (Nat.pow_le_pow_right (by decide) (by omega))
    · have hwhole : numerator * 2 ^ (-power).toNat / denominator <
          (numerator / denominator + 1) * 2 ^ (-power).toNat := by
        apply Nat.div_lt_of_lt_mul
        rw [← Nat.mul_assoc]
        exact Nat.mul_lt_mul_of_pos_right (Nat.lt_mul_div_succ numerator hdenominator) (Nat.two_pow_pos _)
      have hexponent : power.toNat = 0 := by omega
      rw [scaled_of_neg 2 _ _ (Int.not_le.1 hsign)] at hsize
      refine (ofMultiple?_eq_some hsize).2.trans ((Nat.mul_le_mul_right _ (roundedQuotient_le _ _)).trans ?_)
      rw [hexponent, Nat.pow_zero, Nat.mul_one]
      calc numerator * 2 ^ (-power).toNat / denominator + 1
          ≤ (numerator / denominator + 1) * 2 ^ (-power).toNat := hwhole
        _ ≤ (numerator / denominator + 1) * 2 ^ powers :=
            Nat.mul_le_mul_left _ (Nat.pow_le_pow_right (by decide) (by omega))

theorem ofDecimal?_le {digits figures powers : Nat} {exponent : Int} {size : Size} (hfigures : 400 ≤ figures)
    (hpowers : 1074 ≤ powers) (hsize : ofDecimal? digits exponent = some size) :
    size.multiple * 2 ^ size.power.toNat ≤ 10 ^ figures * 2 ^ powers := by
  have hnothing : zero.multiple * 2 ^ zero.power.toNat ≤ 10 ^ figures * 2 ^ powers := by
    rw [zero, Nat.zero_mul]
    exact Nat.zero_le _
  have hdigits : digits < 10 ^ places digits :=
    (Nat.length_toDigits_le_iff (by decide) Nat.length_toDigits_pos).1 (Nat.le_refl _)
  unfold ofDecimal? at hsize
  split at hsize
  · cases hsize
    exact hnothing
  · split at hsize
    · cases hsize
    · rename_i hplaces
      split at hsize
      · cases hsize
        exact hnothing
      · by_cases hsign : 0 ≤ -exponent
        · rw [scaled_of_nonneg 10 _ _ hsign, Nat.one_mul] at hsize
          refine (nearest?_le (Nat.pow_pos (by decide)) hpowers hsize).trans (Nat.mul_le_mul_right _ ?_)
          apply Nat.div_lt_of_lt_mul
          rw [← Nat.pow_add]
          exact hdigits.trans_le (Nat.pow_le_pow_right (by decide) (by omega))
        · rw [scaled_of_neg 10 _ _ (Int.not_le.1 hsign), Int.neg_neg] at hsize
          refine (nearest?_le Nat.one_pos hpowers hsize).trans (Nat.mul_le_mul_right _ ?_)
          rw [Nat.div_one]
          have hpower : 0 < 10 ^ exponent.toNat := Nat.pow_pos (by decide)
          calc digits * 10 ^ exponent.toNat
              < 10 ^ places digits * 10 ^ exponent.toNat := Nat.mul_lt_mul_of_pos_right hdigits hpower
            _ = 10 ^ (places digits + exponent.toNat) := (Nat.pow_add ..).symm
            _ ≤ 10 ^ figures := Nat.pow_le_pow_right (by decide) (by omega)

end Size

theorem Decimal.isShort_of_truncate?_ofDigits {negative : Bool} {digits : Nat} {exponent n : Int}
    (hn : (Decimal.ofDigits negative digits exponent).truncate? = some n) : Value.isShort n = true := by
  rw [ofDigits] at hn
  cases hsize : Size.ofDecimal? digits exponent with
  | none =>
      rw [hsize] at hn
      cases hn
  | some size =>
      rw [hsize] at hn
      have hn : (if negative then -(size.quotient.1 : Int) else size.quotient.1).tdiv size.quotient.2 = n :=
        Option.some.inj hn
      have hpart : n.natAbs = size.quotient.1 / size.quotient.2 := by
        rw [← hn, Int.natAbs_tdiv]
        split
        · rw [Int.natAbs_neg, Int.natAbs_natCast, Int.natAbs_natCast]
          rfl
        · rw [Int.natAbs_natCast, Int.natAbs_natCast]
          rfl
      obtain ⟨figures, powers, hfigures, hpowers, hlong⟩ : ∃ figures powers : Nat, 400 ≤ figures ∧ 1074 ≤ powers ∧
        figures + powers < Text.longestNumeral := ⟨400, 1074, by decide, by decide, by decide⟩
      rw [Value.isShort_iff, hpart]
      calc size.quotient.1 / size.quotient.2
          ≤ 10 ^ figures * 2 ^ powers := size.quotient_le.trans (Size.ofDecimal?_le hfigures hpowers hsize)
        _ ≤ 10 ^ figures * 10 ^ powers := Nat.mul_le_mul_left _ (Nat.pow_le_pow_left (by decide) _)
        _ = 10 ^ (figures + powers) := (Nat.pow_add ..).symm
        _ < 10 ^ Text.longestNumeral := Nat.pow_lt_pow_right (by decide) hlong

namespace Value

/-- All integers in the value have numerals, and so have the integer parts of its numbers with a point. -/
inductive Bounded : Value → Prop
  | null : Bounded null
  | bool (b : Bool) : Bounded (bool b)
  | int {n : Int} (hshort : isShort n = true) : Bounded (int n)
  | dec {d : Decimal} (hpart : ∀ n ∈ d.truncate?, isShort n = true) : Bounded (dec d)
  | str (s : String) : Bounded (str s)
  | arr {items : List Value} (hitems : ∀ item ∈ items, Bounded item) : Bounded (arr items)
  | obj {fields : Fields} (hfields : ∀ field ∈ fields, Bounded field.2) : Bounded (obj fields)

theorem Bounded.isShort_of_toInteger {value : Value} (hbounded : value.Bounded) {n : Int}
    (hinteger : value.toInteger = .ok n) : isShort n = true := by
  cases hbounded with
  | null => cases hinteger
  | bool b =>
      cases hinteger
      cases b <;> decide
  | int hshort =>
      cases hinteger
      exact hshort
  | @dec d hpart =>
      rw [toInteger] at hinteger
      split at hinteger
      · rename_i hn
        cases hinteger
        exact hpart _ hn
      · cases hinteger
  | str s =>
      rw [toInteger] at hinteger
      split at hinteger
      · rename_i hn
        cases hinteger
        exact Text.isShort_of_integer? hn
      · cases hinteger
  | arr hitems => cases hinteger
  | obj hfields => cases hinteger

end Value

namespace Json

theorem bounded_readClosed : ReadClosed Value.Bounded where
  null := .null
  bool := .bool
  word := by
    intro d hd
    simp only [List.mem_cons, List.not_mem_nil, or_false] at hd
    rcases hd with rfl | rfl | rfl <;> exact .dec fun n hn => by cases hn
  text := fun _ => .str _
  number := by
    intro start negative text value rest hread
    rcases readNumber_eq_ok hread with ⟨whole, hdigits, hlength, rfl⟩ | ⟨digits, exponent, rfl⟩
    · refine .int (Value.isShort_iff.2 ?_)
      have hlt := (digitsValue_lt hdigits).trans_le (Nat.pow_le_pow_right (by decide) hlength)
      split <;> simpa using hlt
    · exact .dec fun n => Decimal.isShort_of_truncate?_ofDigits
  arr := .arr
  obj := .obj

theorem read_bounded {text : String} {value : Value} (hread : read text = .ok value) : value.Bounded :=
  bounded_readClosed.of_read hread

end Json

end ProofDump
