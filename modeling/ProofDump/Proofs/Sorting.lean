import Mathlib.Data.List.Sort
import ProofDump.Sorting

/-!
# The sort is stable

Members are sorted by keys when they stand in the order of the keys and those with one key stand as they
did before. Such a list is the only one of its kind, so that sorting and leaving out members can change
places.

The algorithm is taken apart once, for any question whose answers can be chained. What the runs at the
start satisfy and every insertion preserves, the sorted list satisfies (`IsInvariant.sortM_eq_pure`);
halving enters only in `exists_insertM_eq`. Asked whether a key is less, the sort is stable
(`sort_isStableSort`). Asked whether it is not greater, which equal keys answer with yes both ways, it is
stable for the members in the opposite order (`sort_isStableSort_reverse`). The library's merge sort is the
same sort wherever both are asked by keys (`mergeSort_isStableSort`).
-/

namespace ProofDump.Sorting

section Stable

variable {α κ : Type} [LinearOrder κ] {key : α → κ} {members sorted : List α}

/-- The second list has the members of the first in the order of their keys, and those with one key in
the order that they had. -/
structure IsStableSort (key : α → κ) (members sorted : List α) : Prop where
  ordered : sorted.Pairwise fun a b => key a ≤ key b
  kept : ∀ k, sorted.filter (key · = k) = members.filter (key · = k)

namespace IsStableSort

theorem mem_iff (hsorted : IsStableSort key members sorted) {a : α} : a ∈ sorted ↔ a ∈ members := by
  have hkept := congrArg (a ∈ ·) (hsorted.kept (key a))
  simpa using hkept

theorem perm (hsorted : IsStableSort key members sorted) : sorted.Perm members := by
  classical
  rw [List.perm_iff_count]
  intro a
  have hcount := congrArg (List.count a) (hsorted.kept (key a))
  rwa [List.count_filter (by simp), List.count_filter (by simp)] at hcount

theorem filter (hsorted : IsStableSort key members sorted) (p : α → Bool) :
    IsStableSort key (members.filter p) (sorted.filter p) where
  ordered := hsorted.ordered.filter p
  kept k := by
    rw [List.filter_comm, hsorted.kept, List.filter_comm]

theorem map {β : Type} {f : β → α} {given result : List β}
    (hsorted : IsStableSort (fun b => key (f b)) given result) :
    IsStableSort key (given.map f) (result.map f) where
  ordered := List.pairwise_map.2 hsorted.ordered
  kept k := by
    rw [List.filter_map, List.filter_map]
    exact congrArg (List.map f) (hsorted.kept k)

theorem head_le_of_mem {a b : α} {rest : List α} (hordered : (a :: rest).Pairwise fun a b => key a ≤ key b)
    (hmem : b ∈ a :: rest) : key a ≤ key b := by
  rcases List.mem_cons.1 hmem with rfl | hmem
  · exact le_rfl
  · exact List.rel_of_pairwise_cons hordered hmem

/-- In both lists the least key comes first, and with it the same member. -/
theorem unique {other : List α} (hsorted : IsStableSort key members sorted)
    (hother : IsStableSort key members other) : sorted = other := by
  have hkept : ∀ k, sorted.filter (key · = k) = other.filter (key · = k) := fun k =>
    (hsorted.kept k).trans (hother.kept k).symm
  -- The two lists lose their heads together, so the members they came from cannot stay in the induction.
  have hsortedOrder := hsorted.ordered
  have hotherOrder := hother.ordered
  clear hsorted hother
  induction sorted generalizing other with
  | nil =>
      cases other with
      | nil => rfl
      | cons b other => simpa using hkept (key b)
  | cons a sorted ih =>
      cases other with
      | nil => simpa using hkept (key a)
      | cons b other =>
          have hmem (c : α) : c ∈ a :: sorted ↔ c ∈ b :: other := by
            have hmembers := congrArg (c ∈ ·) (hkept (key c))
            simpa using hmembers
          have hkey : key b = key a :=
            le_antisymm (head_le_of_mem hotherOrder ((hmem a).1 List.mem_cons_self))
              (head_le_of_mem hsortedOrder ((hmem b).2 List.mem_cons_self))
          have hhead : a = b ∧ sorted.filter (key · = key a) = other.filter (key · = key a) := by
            have := hkept (key a)
            rwa [List.filter_cons_of_pos (by simp), List.filter_cons_of_pos (by simp [hkey]),
              List.cons.injEq] at this
          obtain ⟨rfl, -⟩ := hhead
          congr 1
          refine ih (fun k => ?_) hsortedOrder.of_cons hotherOrder.of_cons
          have := hkept k
          by_cases hk : key a = k
          · rwa [List.filter_cons_of_pos (by simp [hk]), List.filter_cons_of_pos (by simp [hk]),
              List.cons.injEq, and_iff_right rfl] at this
          · rwa [List.filter_cons_of_neg (by simp [hk]), List.filter_cons_of_neg (by simp [hk])] at this

/-- Two members with one key are related after the sort as they were before it. -/
theorem pairwise {related : α → α → Prop} (hsorted : IsStableSort key members sorted)
    (hmembers : members.Pairwise related) :
    sorted.Pairwise fun a b => key a < key b ∨ key a = key b ∧ related a b := by
  rw [List.pairwise_iff_forall_sublist]
  intro a b hpair
  rcases (List.pairwise_pair.1 (hsorted.ordered.sublist hpair)).lt_or_eq with hless | hsame
  · exact .inl hless
  · have hkept : [a, b].Sublist (members.filter (key · = key b)) := by
      rw [← hsorted.kept]
      simpa [hsame] using hpair.filter (key · = key b)
    exact .inr ⟨hsame, List.pairwise_pair.1 (hmembers.sublist (hkept.trans List.filter_sublist))⟩

theorem of_ordered (hordered : members.Pairwise fun a b => key a ≤ key b) :
    IsStableSort key members members where
  ordered := hordered
  kept _ := rfl

/-- A list whose keys descend strictly is sorted by turning it around: no two members share a key. -/
theorem reverse (hdescending : members.Pairwise fun a b => key b < key a) :
    IsStableSort key members members.reverse where
  ordered := List.pairwise_reverse.2 (hdescending.imp le_of_lt)
  kept k := by
    have hfew : (members.filter (key · = k)).Pairwise fun _ _ => False := by
      refine (hdescending.filter _).imp_of_mem fun ha hb hlt => ?_
      simp only [List.mem_filter, decide_eq_true_eq] at ha hb
      exact (hb.2.trans ha.2.symm).not_lt hlt
    rw [List.filter_reverse]
    match members.filter (key · = k), hfew with
    | [], _ => rfl
    | [_], _ => rfl
    | a :: b :: rest, hfew => exact (List.pairwise_cons.1 hfew).1 b List.mem_cons_self |>.elim

/-- A new member goes after those whose keys are not greater. -/
theorem insert {left right : List α} {pivot : α} (hsorted : IsStableSort key members (left ++ right))
    (hleft : ∀ a ∈ left, key a ≤ key pivot) (hright : ∀ a ∈ right, key pivot < key a) :
    IsStableSort key (members ++ [pivot]) (left ++ pivot :: right) where
  ordered := by
    have hordered := List.pairwise_append.1 hsorted.ordered
    refine List.pairwise_append.2 ⟨hordered.1, ?_, ?_⟩
    · exact List.pairwise_cons.2 ⟨fun a ha => le_of_lt (hright a ha), hordered.2.1⟩
    · intro a ha b hb
      rcases List.mem_cons.1 hb with rfl | hb
      · exact hleft a ha
      · exact hordered.2.2 a ha b hb
  kept k := by
    have hkept := hsorted.kept k
    rw [List.filter_append] at hkept ⊢
    rw [List.filter_append, ← hkept]
    by_cases hk : key pivot = k
    · have hnone : right.filter (key · = k) = [] := by
        rw [List.filter_eq_nil_iff]
        intro a ha
        simpa [← hk] using (hright a ha).ne'
      rw [List.filter_cons_of_pos (by simp [hk]), hnone, List.filter_cons_of_pos (by simp [hk])]
      simp
    · rw [List.filter_cons_of_neg (by simp [hk]), List.filter_cons_of_neg (by simp [hk])]
      simp

/-- Turned around, the sorted list is sorted by the keys in the opposite order. -/
theorem dual (hsorted : IsStableSort key members sorted) :
    IsStableSort (fun a => OrderDual.toDual (key a)) members.reverse sorted.reverse where
  ordered := List.pairwise_reverse.2 hsorted.ordered
  kept k := by
    have hkept := congrArg List.reverse (hsorted.kept (OrderDual.ofDual k))
    rwa [← List.filter_reverse, ← List.filter_reverse] at hkept

/-- A new first member goes before those whose keys are not less. -/
theorem insertFirst {left right : List α} {pivot : α}
    (hsorted : IsStableSort key members (left ++ right)) (hleft : ∀ a ∈ left, key a < key pivot)
    (hright : ∀ a ∈ right, key pivot ≤ key a) :
    IsStableSort key (pivot :: members) (left ++ pivot :: right) := by
  have hturned := hsorted.dual
  rw [List.reverse_append] at hturned
  have hinserted := (hturned.insert (fun a ha => hright a (List.mem_reverse.1 ha))
    (fun a ha => hleft a (List.mem_reverse.1 ha))).dual
  simp only [List.reverse_append, List.reverse_cons, List.reverse_reverse, List.reverse_nil,
    List.nil_append, List.singleton_append, List.append_assoc] at hinserted
  exact ⟨hinserted.ordered, hinserted.kept⟩

end IsStableSort

end Stable

/-! ### The algorithm -/

variable {m : Type → Type} [Monad m] {α : Type} {before : α → α → m Bool}

theorem insertM_nil (before : α → α → m Bool) (pivot : α) : insertM before pivot [] = pure [pivot] := by
  rw [insertM]
  split
  · rfl
  · rename_i hdrop
    rw [List.drop_nil] at hdrop
    cases hdrop

/-- One step of the search for a place: a member of a list that is not empty is compared, and the search goes on in
what is before or after it. -/
theorem exists_insertM_eq {sorted : List α} (hsorted : sorted ≠ []) (before : α → α → m Bool) (pivot : α) :
    ∃ left middle right, sorted = left ++ middle :: right ∧
      insertM before pivot sorted = (do
        if ← before pivot middle then return (← insertM before pivot left) ++ middle :: right
        else return left ++ middle :: (← insertM before pivot right)) := by
  rw [insertM]
  split
  · rename_i hdrop
    have hlength := congrArg List.length hdrop
    rw [List.length_drop, List.length_nil] at hlength
    exact absurd (List.length_eq_zero_iff.1 (by omega)) hsorted
  · rename_i middle right hdrop
    refine ⟨sorted.take (sorted.length / 2), middle, right, ?_, rfl⟩
    rw [← hdrop, List.take_append_drop]

variable [LawfulMonad m]

/-- A new member is put before exactly those that it comes before, if these stand at the end. -/
theorem insertM_eq_pure {pivot : α} {less : α → Bool} {sorted : List α}
    (hbefore : ∀ a ∈ sorted, before pivot a = pure (less a))
    (hless : sorted.Pairwise fun a b => less a = true → less b = true) :
    ∃ left right, sorted = left ++ right ∧ (∀ a ∈ left, less a = false) ∧ (∀ a ∈ right, less a = true) ∧
      insertM before pivot sorted = pure (left ++ pivot :: right) := by
  -- By the length: the search goes on in one of the halves.
  induction hsize : sorted.length using Nat.strongRecOn generalizing sorted with
  | ind size ih =>
      by_cases hempty : sorted = []
      · subst hempty
        exact ⟨[], [], rfl, List.forall_mem_nil _, List.forall_mem_nil _, insertM_nil before pivot⟩
      obtain ⟨left, middle, right, rfl, hstep⟩ := exists_insertM_eq hempty before pivot
      rw [List.forall_mem_append, List.forall_mem_cons] at hbefore
      obtain ⟨hbeforeLeft, hbeforeMiddle, hbeforeRight⟩ := hbefore
      rw [List.pairwise_append, List.pairwise_cons] at hless
      obtain ⟨hlessLeft, ⟨hlessMiddle, hlessRight⟩, hacross⟩ := hless
      rw [List.length_append, List.length_cons] at hsize
      rw [hstep, hbeforeMiddle, pure_bind]
      cases hmiddle : less middle with
      | true =>
          obtain ⟨first, second, rfl, hfirst, hsecond, hinsert⟩ :=
            ih left.length (by omega) hbeforeLeft hlessLeft rfl
          refine ⟨first, second ++ middle :: right, List.append_assoc .., hfirst, ?_, ?_⟩
          · rw [List.forall_mem_append, List.forall_mem_cons]
            exact ⟨hsecond, hmiddle, fun a ha => hlessMiddle a ha hmiddle⟩
          · rw [if_pos rfl, hinsert, pure_bind, List.append_assoc, List.cons_append]
      | false =>
          obtain ⟨first, second, rfl, hfirst, hsecond, hinsert⟩ :=
            ih right.length (by omega) hbeforeRight hlessRight rfl
          have hleft (a : α) (ha : a ∈ left) : less a = false := by
            by_contra hnot
            have htrue := hacross a ha middle List.mem_cons_self (Bool.eq_true_of_not_eq_false hnot)
            rw [hmiddle] at htrue
            cases htrue
          refine ⟨left ++ middle :: first, second, by simp, ?_, hsecond, ?_⟩
          · rw [List.forall_mem_append, List.forall_mem_cons]
            exact ⟨hleft, hmiddle, hfirst⟩
          · rw [if_neg Bool.false_ne_true, hinsert, pure_bind, List.append_assoc, List.cons_append]

section Invariants

variable {less : α → α → Bool} {keeps : List α → List α → Prop}

/-- The relation between the members taken so far and the list made of them holds of the runs that the
sort starts from, and is preserved when a new member is put between those that it does not come before
and those that it comes before. -/
structure IsInvariant (less : α → α → Bool) (keeps : List α → List α → Prop) : Prop where
  trans {answer : Bool} {a b c : α} : less a b = answer → less b c = answer → less a c = answer
  ascending {run : List α} : (run.Pairwise fun a b => less b a = false) → keeps run run
  descending {run : List α} : (run.Pairwise fun a b => less b a = true) → keeps run run.reverse
  subset {done sorted : List α} : keeps done sorted → sorted ⊆ done
  split {done sorted : List α} (pivot : α) : keeps done sorted →
    sorted.Pairwise fun a b => less pivot a = true → less pivot b = true
  insert {done left right : List α} {pivot : α} : keeps done (left ++ right) →
    (∀ a ∈ left, less pivot a = false) → (∀ a ∈ right, less pivot a = true) →
    keeps (done ++ [pivot]) (left ++ pivot :: right)

namespace IsInvariant

theorem insertAllM_eq_pure (hinvariant : IsInvariant less keeps) {done sorted rest : List α}
    (hsorted : keeps done sorted)
    (hbefore : ∀ a ∈ rest, ∀ b ∈ done ++ rest, before a b = pure (less a b)) :
    ∃ result, insertAllM before sorted rest = pure result ∧ keeps (done ++ rest) result := by
  induction rest generalizing done sorted with
  | nil => exact ⟨sorted, rfl, by simpa using hsorted⟩
  | cons pivot rest ih =>
      have hpivot : ∀ a ∈ sorted, before pivot a = pure (less pivot a) := fun a ha =>
        hbefore pivot List.mem_cons_self a (List.mem_append_left _ (hinvariant.subset hsorted ha))
      obtain ⟨left, right, rfl, hleft, hright, hinsert⟩ :=
        insertM_eq_pure hpivot (hinvariant.split pivot hsorted)
      have hinserted := hinvariant.insert hsorted hleft hright
      obtain ⟨result, hresult, hkeeps⟩ := ih hinserted fun a ha b hb =>
        hbefore a (List.mem_cons_of_mem _ ha) b (by simpa using hb)
      refine ⟨result, ?_, by simpa using hkeeps⟩
      rw [insertAllM, hinsert, pure_bind, hresult]

/-- A run is lengthened by members that keep its direction. -/
theorem extendM_eq_pure (hinvariant : IsInvariant less keeps) {descending : Bool} {last : α}
    {run rest : List α}
    (hbefore : ∀ a ∈ last :: rest, ∀ b ∈ last :: rest, before a b = pure (less a b))
    (hrun : (last :: run).Pairwise fun a b => less a b = descending) :
    ∃ taken others, rest = taken ++ others ∧
      extendM before descending last run rest = pure (taken.reverse ++ last :: run, others) ∧
      (taken.reverse ++ last :: run).Pairwise fun a b => less a b = descending := by
  induction rest generalizing last run with
  | nil => exact ⟨[], [], rfl, rfl, hrun⟩
  | cons next rest ih =>
      rw [extendM, hbefore next (by simp) last (by simp), pure_bind]
      split
      · rename_i hnext
        have hlonger : (next :: last :: run).Pairwise fun a b => less a b = descending := by
          refine List.pairwise_cons.2 ⟨fun a ha => ?_, hrun⟩
          rcases List.mem_cons.1 ha with rfl | ha
          · exact eq_of_beq hnext
          · exact hinvariant.trans (eq_of_beq hnext) ((List.pairwise_cons.1 hrun).1 a ha)
        obtain ⟨taken, others, hrest, hextend, htaken⟩ :=
          ih (fun a ha b hb => hbefore a (List.mem_cons_of_mem _ ha) b (List.mem_cons_of_mem _ hb)) hlonger
        refine ⟨next :: taken, others, by rw [hrest]; rfl, ?_, ?_⟩
        · rw [hextend]
          simp
        · simpa using htaken
      · exact ⟨[], next :: rest, rfl, rfl, hrun⟩

theorem firstRunM_eq_pure (hinvariant : IsInvariant less keeps) {members : List α}
    (hbefore : ∀ a ∈ members, ∀ b ∈ members, before a b = pure (less a b)) :
    ∃ taken rest run, members = taken ++ rest ∧ firstRunM before members = pure (run, rest) ∧
      keeps taken run := by
  match members, hbefore with
  | [], _ => exact ⟨[], [], [], rfl, rfl, hinvariant.ascending .nil⟩
  | [only], _ =>
      exact ⟨[only], [], [only], rfl, rfl, hinvariant.ascending (List.pairwise_singleton _ _)⟩
  | first :: second :: rest, hbefore =>
      have hrest : ∀ a ∈ second :: rest, ∀ b ∈ second :: rest, before a b = pure (less a b) :=
        fun a ha b hb => hbefore a (List.mem_cons_of_mem _ ha) b (List.mem_cons_of_mem _ hb)
      obtain ⟨taken, others, hsplit, hextend, hrun⟩ := hinvariant.extendM_eq_pure hrest
        (List.pairwise_pair.2 (rfl : less second first = _))
      have hturned : taken.reverse ++ [second, first] = (first :: second :: taken).reverse := by simp
      -- The run is held with its newest member first, so an ascending one has to be turned around.
      rw [hturned] at hextend hrun
      rw [firstRunM, hbefore second (by simp) first (by simp), pure_bind]
      cases hdescending : less second first with
      | true =>
          rw [hdescending] at hextend hrun
          exact ⟨first :: second :: taken, others, _, by rw [hsplit]; rfl, hextend,
            hinvariant.descending (List.pairwise_reverse.1 hrun)⟩
      | false =>
          rw [hdescending] at hextend hrun
          refine ⟨first :: second :: taken, others, first :: second :: taken, by rw [hsplit]; rfl, ?_,
            hinvariant.ascending (List.pairwise_reverse.1 hrun)⟩
          rw [if_neg (by simp), hextend, pure_bind]
          simp

theorem sortM_eq_pure (hinvariant : IsInvariant less keeps) {members : List α}
    (hbefore : ∀ a ∈ members, ∀ b ∈ members, before a b = pure (less a b)) :
    ∃ sorted, sortM before members = pure sorted ∧ keeps members sorted := by
  obtain ⟨taken, rest, run, rfl, hfirst, hrun⟩ := hinvariant.firstRunM_eq_pure hbefore
  obtain ⟨sorted, hinsert, hsorted⟩ := hinvariant.insertAllM_eq_pure hrun fun a ha b hb =>
    hbefore a (List.mem_append_right _ ha) b hb
  refine ⟨sorted, ?_, hsorted⟩
  rw [sortM, hfirst, pure_bind]
  exact hinsert

theorem sort (hinvariant : IsInvariant less keeps) {comes : α → α → Bool} {members : List α}
    (hcomes : ∀ a ∈ members, ∀ b ∈ members, comes a b = less a b) :
    keeps members (Sorting.sort comes members) := by
  have hbefore : ∀ a ∈ members, ∀ b ∈ members, (pure (comes a b) : Id Bool) = pure (less a b) :=
    fun a ha b hb => congrArg pure (hcomes a ha b hb)
  obtain ⟨sorted, hsort, hsorted⟩ := hinvariant.sortM_eq_pure hbefore
  have heq : Sorting.sort comes members = sorted := congrArg Id.run hsort
  rwa [heq]

end IsInvariant

end Invariants

section Keys

variable {κ : Type} [LinearOrder κ] {key : α → κ}

theorem less_isInvariant (key : α → κ) :
    IsInvariant (fun a b => decide (key a < key b)) (IsStableSort key) where
  trans {answer a b c} hab hbc := by
    cases answer with
    | true => simpa using (of_decide_eq_true hab).trans (of_decide_eq_true hbc)
    | false =>
        have hba := not_lt.1 (of_decide_eq_false hab)
        have hcb := not_lt.1 (of_decide_eq_false hbc)
        simpa using hcb.trans hba
  ascending hrun := .of_ordered (hrun.imp fun h => not_lt.1 (of_decide_eq_false h))
  descending hrun := .reverse (hrun.imp fun h => of_decide_eq_true h)
  subset hsorted _ ha := hsorted.mem_iff.1 ha
  split pivot hsorted :=
    hsorted.ordered.imp fun hle hlt => by simpa using (of_decide_eq_true hlt).trans_le hle
  insert hsorted hleft hright :=
    hsorted.insert (fun a ha => not_lt.1 (of_decide_eq_false (hleft a ha)))
      (fun a ha => of_decide_eq_true (hright a ha))

theorem atMost_isInvariant (key : α → κ) :
    IsInvariant (fun a b => decide (key a ≤ key b))
      (fun done sorted => IsStableSort key done.reverse sorted) where
  trans {answer a b c} hab hbc := by
    cases answer with
    | true => simpa using (of_decide_eq_true hab).trans (of_decide_eq_true hbc)
    | false =>
        have hba := not_le.1 (of_decide_eq_false hab)
        have hcb := not_le.1 (of_decide_eq_false hbc)
        simpa using hcb.trans hba
  ascending {run} hrun := by
    have hdescending : run.reverse.Pairwise fun a b => key b < key a :=
      List.pairwise_reverse.2 (hrun.imp fun h => not_le.1 (of_decide_eq_false h))
    simpa using IsStableSort.reverse hdescending
  descending hrun :=
    .of_ordered (List.pairwise_reverse.2 (hrun.imp fun h => of_decide_eq_true h))
  subset hsorted _ ha := List.mem_reverse.1 (hsorted.mem_iff.1 ha)
  split pivot hsorted :=
    hsorted.ordered.imp fun hle hpivot => by simpa using (of_decide_eq_true hpivot).trans hle
  insert hsorted hleft hright := by
    simpa using hsorted.insertFirst (fun a ha => not_le.1 (of_decide_eq_false (hleft a ha)))
      (fun a ha => of_decide_eq_true (hright a ha))

theorem sortM_eq_pure {members : List α}
    (hbefore : ∀ a ∈ members, ∀ b ∈ members, before a b = pure (decide (key a < key b))) :
    ∃ sorted, sortM before members = pure sorted ∧ IsStableSort key members sorted :=
  (less_isInvariant key).sortM_eq_pure hbefore

theorem sort_isStableSort {comes : α → α → Bool} {members : List α}
    (hcomes : ∀ a ∈ members, ∀ b ∈ members, comes a b = decide (key a < key b)) :
    IsStableSort key members (sort comes members) :=
  (less_isInvariant key).sort hcomes

theorem sort_isStableSort_reverse {comes : α → α → Bool} {members : List α}
    (hcomes : ∀ a ∈ members, ∀ b ∈ members, comes a b = decide (key a ≤ key b)) :
    IsStableSort key members.reverse (sort comes members) :=
  (atMost_isInvariant key).sort hcomes

theorem mergeSort_isStableSort (key : α → κ) (members : List α) :
    IsStableSort key members (members.mergeSort fun a b => key a ≤ key b) := by
  have htrans (a b c : α) (hab : decide (key a ≤ key b) = true) (hbc : decide (key b ≤ key c) = true) :
      decide (key a ≤ key c) = true :=
    decide_eq_true ((of_decide_eq_true hab).trans (of_decide_eq_true hbc))
  have htotal (a b : α) : (decide (key a ≤ key b) || decide (key b ≤ key a)) = true := by
    simpa using le_total (key a) (key b)
  refine ⟨(List.pairwise_mergeSort htrans htotal members).imp of_decide_eq_true, fun k => ?_⟩
  -- The members with one key are in order as they stand, and merging keeps such a part of the list.
  have hpart : (members.filter (key · = k)).Pairwise fun a b => decide (key a ≤ key b) = true := by
    refine List.pairwise_of_forall_mem_list fun a ha b hb => decide_eq_true ?_
    simp only [List.mem_filter, decide_eq_true_eq] at ha hb
    exact (ha.2.trans hb.2.symm).le
  have hsublist := (List.sublist_mergeSort htrans htotal hpart List.filter_sublist).filter (key · = k)
  simp only [List.filter_filter, Bool.and_self] at hsublist
  exact (hsublist.eq_of_length ((List.mergeSort_perm members _).filter _).length_eq.symm).symm

end Keys

/-- Things that stand for others are sorted as these are. -/
theorem sortM_map_eq_pure {β κ : Type} [LinearOrder κ] (comes : α → α → m Bool) (key : α → κ) (f : β → α)
    {members : List β}
    (hcomes : ∀ a ∈ members, ∀ b ∈ members, comes (f a) (f b) = pure (decide (key (f a) < key (f b)))) :
    ∃ sorted, sortM comes (members.map f) = pure (sorted.map f) ∧
      IsStableSort (fun b => key (f b)) members sorted := by
  have hsort : IsStableSort (fun b => key (f b)) members
      (sort (fun a b => decide (key (f a) < key (f b))) members) := sort_isStableSort fun _ _ _ _ => rfl
  have hmapped : ∀ a ∈ members.map f, ∀ b ∈ members.map f, comes a b = pure (decide (key a < key b)) := by
    intro a ha b hb
    obtain ⟨one, hone, rfl⟩ := List.mem_map.1 ha
    obtain ⟨two, htwo, rfl⟩ := List.mem_map.1 hb
    exact hcomes one hone two htwo
  obtain ⟨sorted, hsorted, hstable⟩ := sortM_eq_pure hmapped
  rw [hstable.unique (.map hsort)] at hsorted
  exact ⟨_, hsorted, hsort⟩

end ProofDump.Sorting
