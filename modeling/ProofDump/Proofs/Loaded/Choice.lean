import Mathlib.Data.List.Count
import ProofDump.Loaded.Choice
import ProofDump.Proofs.Except
import ProofDump.Proofs.Value

/-!
# What the checks of choices accept

The strict check of a record goes by the number of its named parts that are there (`presentCount`). The loose
check has only one thing to count, whatever the record is, so it is right about the records with exactly one of
the parts and wrong about all others.
-/

namespace ProofDump.Loaded

/-- The number of the named parts that are there in a record. -/
def presentCount (record : Value) (names : List String) : Nat := names.countP fun name => !(record.part name).isNull

theorem exactlyOne_eq_decide {α : Type} (isThere : α → Bool) (things : List α) :
    exactlyOne isThere things = decide (things.countP isThere = 1) := by
  rw [exactlyOne, List.countP_eq_length_filter, Bool.beq_eq_decide_eq]

theorem isChoice_map_part (record : Value) (names : List String) :
    isChoice (names.map record.part) = decide (presentCount record names = 1) := by
  rw [isChoice, exactlyOne_eq_decide, List.countP_map]
  rfl

theorem checkChoice_eq_ite (fields : Fields) (names : List String) :
    checkChoice (.obj fields) names =
      if presentCount (.obj fields) names = 1 then .ok () else .error (.refused (choiceReason names)) := by
  have hparts : names.mapM (Value.obj fields).attr = .ok (names.map (Value.obj fields).part) :=
    mapM_eq_ok_map fun name _ => Value.IsRecord.attr ⟨fields, rfl⟩ name
  rw [checkChoice, hparts, ok_bind, isChoice_map_part]
  by_cases hone : presentCount (.obj fields) names = 1
  · rw [if_pos hone, decide_eq_true hone]
    rfl
  · rw [if_neg hone, decide_eq_false hone]
    rfl

/-- Whatever the record is, there is one look-up of its parts. -/
theorem looseCheck_texts (record : Value) (names : List String) : looseCheck record (.texts names) = .ok () := rfl

/-- The strict check refuses a record exactly when the number of its named parts that are there is not one. The
loose check refuses nothing, so it does the same exactly for the records with one of the parts. -/
theorem loose_check_right_iff (fields : Fields) (names : List String) :
    isChoice (names.map (Value.obj fields).part) = decide (presentCount (.obj fields) names = 1) ∧
    checkChoice (.obj fields) names =
      (if presentCount (.obj fields) names = 1 then .ok () else .error (.refused (choiceReason names))) ∧
    looseCheck (.obj fields) (.texts names) = .ok () ∧
    (((∃ fault, looseCheck (.obj fields) (.texts names) = .error fault) ↔
        presentCount (.obj fields) names ≠ 1) ↔ presentCount (.obj fields) names = 1) := by
  have hloose := looseCheck_texts (.obj fields) names
  refine ⟨isChoice_map_part _ names, checkChoice_eq_ite fields names, hloose, ?_⟩
  rw [hloose]
  simp

/-- A record with both parts of an open namespace. -/
def openBoth : Fields := [("simple", .str "x"), ("rename", .str "y")]

theorem openBoth_passes_loose_check :
    presentCount (.obj openBoth) openParts = 2 ∧ looseCheck (.obj openBoth) (.texts openParts) = .ok () ∧
      checkChoice (.obj openBoth) openParts = .error (.refused "exactly one of [simple, rename] is expected") := by
  refine ⟨by decide, rfl, rfl⟩

end ProofDump.Loaded
