import ProofDump.Proofs.Except
import ProofDump.Value.Access
import ProofDump.Value.Order

/-!
# Records and their parts

A loaded record can be asked for any part, and answers null for those that were not written. `part` is
that answer as a function; asking succeeds exactly for records, with this answer. A raw table that is
asked with null as the default answers the same. Integers and texts are compared as such.
-/

namespace ProofDump.Value

/-- A part of a loaded record. What is no record has no part that counts. -/
def part (value : Value) (name : String) : Value :=
  match value with
  | obj fields => (Fields.get? fields name).getD null
  | _ => null

def IsRecord (value : Value) : Prop := ∃ fields, value = obj fields

/-- A list of records. -/
def IsRecords (value : Value) : Prop := ∃ items, value = arr items ∧ ∀ item ∈ items, item.IsRecord

theorem isNull_iff {value : Value} : value.isNull = true ↔ value = null := by
  cases value <;> simp [isNull]

theorem IsRecord.attr {value : Value} (hrecord : value.IsRecord) (name : String) :
    value.attr name = .ok (value.part name) := by
  obtain ⟨fields, rfl⟩ := hrecord
  rfl

theorem attr_eq_ok_iff {value answer : Value} {name : String} :
    value.attr name = .ok answer ↔ value.IsRecord ∧ answer = value.part name := by
  constructor
  · intro hattr
    cases value with
    | obj fields =>
        cases hattr
        exact ⟨⟨fields, rfl⟩, rfl⟩
    | _ => cases hattr
  · rintro ⟨hrecord, rfl⟩
    exact hrecord.attr name

theorem attr_bind_eq_ok {β : Type} {value : Value} {name : String} {next : Value → Except Fault β} {result : β} :
    value.attr name >>= next = .ok result ↔ value.IsRecord ∧ next (value.part name) = .ok result := by
  rw [bind_eq_ok]
  constructor
  · rintro ⟨answer, hanswer, hnext⟩
    obtain ⟨hrecord, rfl⟩ := attr_eq_ok_iff.1 hanswer
    exact ⟨hrecord, hnext⟩
  · rintro ⟨hrecord, hnext⟩
    exact ⟨_, hrecord.attr name, hnext⟩

theorem presentAttr_eq_ok {value : Value} {name : String} {answer : Option Value}
    (hanswer : value.presentAttr name = .ok answer) :
    answer = if (value.part name).present then some (value.part name) else none := by
  cases value with
  | obj fields => exact (Except.ok.inj hanswer).symm
  | _ =>
      simp only [presentAttr, Value.attr] at hanswer
      split at hanswer
      · cases hanswer
      · exact (Except.ok.inj hanswer).symm

theorem IsRecord.find {value : Value} (hrecord : value.IsRecord) (name : String) :
    value.find name null = .ok (value.part name) := by
  obtain ⟨fields, rfl⟩ := hrecord
  rfl

theorem key_eq_ok_iff {value answer : Value} {name : String} :
    value.key name = .ok answer ↔ ∃ fields, value = obj fields ∧ Fields.get? fields name = some answer := by
  cases value with
  | obj fields =>
      rw [key]
      cases hentry : Fields.get? fields name with
      | none => simp [hentry]
      | some entry => simp [hentry]
  | _ => simp [key]

/-! ### Integers -/

/-- The integer that a value is, zero for all others. -/
def asInt : Value → Int
  | int n => n
  | _ => 0

theorem less_int (m n : Int) : (int m).less (int n) = .ok (decide (m < n)) := by
  show Except.ok (Relation.less.holds (if m < n then .lt else if m = n then .eq else .gt)) = _
  rcases Int.lt_trichotomy m n with hlt | rfl | hgt
  · simp [hlt, Relation.holds]
  · simp [Relation.holds]
  · simp [Int.not_lt.2 (Int.le_of_lt hgt), (Int.ne_of_lt hgt).symm, Relation.holds]

theorem atMost_int (m n : Int) : (int m).atMost (int n) = .ok (decide (m ≤ n)) := by
  show Except.ok (Relation.atMost.holds (if m < n then .lt else if m = n then .eq else .gt)) = _
  rcases Int.lt_trichotomy m n with hlt | rfl | hgt
  · simp [hlt, Int.le_of_lt hlt, Relation.holds]
  · simp [Relation.holds]
  · simp [Int.not_lt.2 (Int.le_of_lt hgt), (Int.ne_of_lt hgt).symm, Int.not_le.2 hgt, Relation.holds]

theorem sameMember_int (m n : Int) : (int m).sameMember (int n) = decide (m = n) := by
  simp [sameMember, same, sameNumber, isUndefined, Bool.beq_eq_decide_eq]

/-! ### Texts -/

theorem less_str (s t : String) : (str s).less (str t) = .ok (decide (s < t)) := by
  show Except.ok (Relation.less.holds (if s < t then .lt else if s = t then .eq else .gt)) = _
  by_cases hlt : s < t
  · simp [hlt, Relation.holds]
  · by_cases heq : s = t <;> simp [hlt, heq, Relation.holds]

theorem same_str (s t : String) : (str s).same (str t) = decide (s = t) := by
  simp [same, Bool.beq_eq_decide_eq]

theorem same_str_iff {value : Value} {text : String} : value.same (str text) = true ↔ value = str text := by
  have hnumber (value : Value) : value.sameNumber (str text) = false := by
    rw [sameNumber]
    · cases value.place? <;> rfl
    · intro m n _ hint
      cases hint
  cases value with
  | str s => rw [same_str, decide_eq_true_iff, str.injEq]
  | _ => simp [same, hnumber]

theorem sameMember_str (s t : String) : (str s).sameMember (str t) = decide (s = t) := by
  rw [sameMember, same_str]
  rfl

/-- Pairs of texts are ordered by the first, then by the second. -/
theorem less_pair (s t u v : String) :
    (arr [str s, str t]).less (arr [str u, str v]) = .ok (decide (s < u ∨ s = u ∧ t < v)) := by
  show relatedItems .less _ _ = _
  rw [relatedItems, sameMember_str]
  by_cases hsu : s = u
  · subst hsu
    rw [if_pos (by simp), relatedItems, sameMember_str]
    by_cases htv : t = v
    · subst htv
      rw [if_pos (by simp), relatedItems, decide_eq_false]
      · rfl
      · rintro (hlt | ⟨-, hlt⟩) <;> exact String.lt_irrefl _ hlt
    · rw [if_neg (by simpa using htv)]
      refine (less_str t v).trans (congrArg Except.ok (decide_eq_decide.2 ?_))
      exact ⟨fun hlt => .inr ⟨rfl, hlt⟩, fun hlt => (hlt.resolve_left (String.lt_irrefl s)).2⟩
  · rw [if_neg (by simpa using hsu)]
    refine (less_str s u).trans ?_
    simp [hsu]

end ProofDump.Value
