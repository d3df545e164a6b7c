import Mathlib.Data.Prod.Lex
import ProofDump.InfoTree.Tactics
import ProofDump.Proofs.Position
import ProofDump.Proofs.Sorting

/-!
# The order of positions and ranges

Positions are ordered by line and then by column. Of ranges with one start, one order lists the longer ones
first, the other the shorter ones. The first is asked for by a question that equal ranges answer with yes in
both directions, which no strict order does. The sort puts them in order all the same, and turns those that are
equal around: what comes out is the stable sort of the list read backwards (`sort_outerBefore`).
-/

namespace ProofDump

namespace FilePos

def key (pos : FilePos) : ℤ ×ₗ ℤ := toLex (pos.line, pos.column)

theorem key_injective : Function.Injective key := by
  intro a b hkey
  cases a with
  | mk line column =>
      cases b with
      | mk otherLine otherColumn =>
          cases toLex.injective hkey
          rfl

instance : LinearOrder FilePos := LinearOrder.lift' key key_injective

theorem before_eq_true_iff_lt {a b : FilePos} : a.before b = true ↔ a < b := by
  show _ ↔ a.key < b.key
  rw [before_iff, key, key, Prod.Lex.toLex_lt_toLex]

theorem atMost_eq_true_iff_le {a b : FilePos} : a.atMost b = true ↔ a ≤ b := by
  rw [atMost, Bool.or_eq_true, before_eq_true_iff_lt, beq_iff_eq, le_iff_lt_or_eq]

end FilePos

namespace RootRule

/-- Of equal starts the longer range comes first, or the shorter one. -/
def InOrder : RootRule → FileRange → FileRange → Prop
  | outerFirst, a, b => a.start < b.start ∨ a.start = b.start ∧ b.stop ≤ a.stop
  | innerFirst, a, b => a.start < b.start ∨ a.start = b.start ∧ a.stop ≤ b.stop

theorem InOrder.start_le {rule : RootRule} {a b : FileRange} (horder : rule.InOrder a b) :
    a.start ≤ b.start := by
  cases rule with
  | outerFirst => exact horder.elim le_of_lt fun hequal => hequal.1.le
  | innerFirst => exact horder.elim le_of_lt fun hequal => hequal.1.le

end RootRule

namespace FileRange

def outerKey (range : FileRange) : FilePos ×ₗ FilePosᵒᵈ := toLex (range.start, OrderDual.toDual range.stop)

def innerKey (range : FileRange) : FilePos ×ₗ FilePos := toLex (range.start, range.stop)

theorem inOrder_outerFirst_iff {a b : FileRange} :
    RootRule.outerFirst.InOrder a b ↔ a.outerKey ≤ b.outerKey := by
  rw [outerKey, outerKey, Prod.Lex.toLex_le_toLex]
  rfl

theorem inOrder_innerFirst_iff {a b : FileRange} :
    RootRule.innerFirst.InOrder a b ↔ a.innerKey ≤ b.innerKey := by
  rw [innerKey, innerKey, Prod.Lex.toLex_le_toLex]
  rfl

theorem outerBefore_eq (a b : FileRange) : a.outerBefore b = decide (a.outerKey ≤ b.outerKey) := by
  rw [Bool.eq_iff_iff, decide_eq_true_iff, ← inOrder_outerFirst_iff, outerBefore, Bool.or_eq_true,
    Bool.and_eq_true, FilePos.before_eq_true_iff_lt, FilePos.atMost_eq_true_iff_le, beq_iff_eq]
  rfl

theorem innerBefore_eq (a b : FileRange) : a.innerBefore b = decide (a.innerKey < b.innerKey) := by
  rw [Bool.eq_iff_iff, decide_eq_true_iff, innerKey, innerKey, Prod.Lex.toLex_lt_toLex, innerBefore,
    Bool.or_eq_true, Bool.and_eq_true, FilePos.before_eq_true_iff_lt, FilePos.before_eq_true_iff_lt,
    beq_iff_eq]

theorem outerKey_injective : Function.Injective outerKey := by
  intro a b hkey
  cases a with
  | mk start stop =>
      cases b with
      | mk otherStart otherStop =>
          cases toLex.injective hkey
          rfl

theorem sort_outerBefore_isStableSort {α : Type} (range : α → FileRange) (members : List α) :
    Sorting.IsStableSort (fun a => (range a).outerKey) members.reverse
      (Sorting.sort (fun a b => (range a).outerBefore (range b)) members) :=
  Sorting.sort_isStableSort_reverse fun a _ b _ => outerBefore_eq (range a) (range b)

theorem sort_innerBefore_isStableSort {α : Type} (range : α → FileRange) (members : List α) :
    Sorting.IsStableSort (fun a => (range a).innerKey) members
      (Sorting.sort (fun a b => (range a).innerBefore (range b)) members) :=
  Sorting.sort_isStableSort fun a _ b _ => innerBefore_eq (range a) (range b)

theorem outerBefore_both_iff {a b : FileRange} :
    a.outerBefore b = true ∧ b.outerBefore a = true ↔ a = b := by
  rw [outerBefore_eq, outerBefore_eq, decide_eq_true_iff, decide_eq_true_iff, ← le_antisymm_iff,
    outerKey_injective.eq_iff]

/-- Sorting by a question that equal ranges answer with yes in both directions lists everything once, by
start and then by stop, the later one first. Of equal ranges the last comes first, so that this is the stable
sort of the list read backwards. -/
theorem sort_outerBefore {α : Type} (range : α → FileRange) (members : List α) :
    let sorted := Sorting.sort (fun a b => (range a).outerBefore (range b)) members
    (∀ a b : FileRange, a.outerBefore b = true ∧ b.outerBefore a = true ↔ a = b) ∧
      sorted.Perm members ∧
      (sorted.Pairwise fun a b => (range a).start < (range b).start ∨
        (range a).start = (range b).start ∧ (range b).stop ≤ (range a).stop) ∧
      (∀ shared, sorted.filter (range · = shared) = (members.filter (range · = shared)).reverse) ∧
      sorted = members.reverse.mergeSort fun a b => (range a).outerKey ≤ (range b).outerKey := by
  intro sorted
  have hsorted : Sorting.IsStableSort (fun a => (range a).outerKey) members.reverse sorted :=
    sort_outerBefore_isStableSort range members
  refine ⟨fun _ _ => outerBefore_both_iff, hsorted.perm.trans members.reverse_perm, ?_, ?_, ?_⟩
  · exact hsorted.ordered.imp fun hle => inOrder_outerFirst_iff.2 hle
  · intro shared
    have hkept := hsorted.kept shared.outerKey
    simp only [outerKey_injective.eq_iff] at hkept
    rw [hkept, List.filter_reverse]
  · exact hsorted.unique (Sorting.mergeSort_isStableSort _ members.reverse)

end FileRange

end ProofDump
