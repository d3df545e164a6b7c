import Mathlib.Data.List.Induction
import Mathlib.Order.Bounds.Basic
import ProofDump.Dataset.LineStates
import ProofDump.Proofs.Except
import ProofDump.Proofs.Sorting
import ProofDump.Proofs.Value

/-!
# The state at a position

What the states of lines say is stated on the lines themselves: `LastState` is the state of the last
line that starts at a position, and `LineAt` adds the choice of the start, the greatest one that is not
after the position. Both ways to ask for a state give the answer of `LineAt`; the one that looks for the
position itself first finds it exactly where the position is that greatest start.
-/

namespace ProofDump.Dataset

/-- A line of a dump. It may leave out where it starts. -/
def IsLine (line : Value) : Prop :=
  line.IsRecord ∧ (line.part "start" = .null ∨ ∃ start, line.part "start" = .int start)

def starts (lines : List Value) : Set Int := {start | ∃ line ∈ lines, line.part "start" = .int start}

/-- The state of the last line that starts at a position. -/
def LastState (lines : List Value) (start : Int) (state : Value) : Prop :=
  ∃ earlier line later, lines = earlier ++ line :: later ∧ line.part "start" = .int start ∧
    line.part "state" = state ∧ ∀ other ∈ later, other.part "start" ≠ .int start

/-- The start of the line that a position is on, and the last state recorded for this start. Both are
null before the first line. -/
inductive LineAt (lines : List Value) (position : Int) : Value → Value → Prop
  | before (hbefore : ∀ start ∈ starts lines, position < start) : LineAt lines position .null .null
  | on {start : Int} {state : Value}
      (hgreatest : IsGreatest {start ∈ starts lines | start ≤ position} start)
      (hstate : LastState lines start state) : LineAt lines position (.int start) state

theorem lastState_concat {lines : List Value} {line : Value} {start : Int} {state : Value} :
    LastState (lines ++ [line]) start state ↔
      line.part "start" = .int start ∧ line.part "state" = state ∨
        line.part "start" ≠ .int start ∧ LastState lines start state := by
  constructor
  · rintro ⟨earlier, last, later, hlines, hstart, hstate, hlater⟩
    rcases List.eq_nil_or_concat later with rfl | ⟨later, other, rfl⟩
    · obtain ⟨-, hline⟩ := List.append_inj' hlines rfl
      cases hline
      exact .inl ⟨hstart, hstate⟩
    · rw [List.concat_eq_append] at hlines hlater
      rw [← List.cons_append, ← List.append_assoc] at hlines
      obtain ⟨hfront, hline⟩ := List.append_inj' hlines rfl
      cases hline
      refine .inr ⟨hlater line (by simp), earlier, last, later, hfront, hstart, hstate, ?_⟩
      exact fun other hother => hlater other (by simp [hother])
  · rintro (⟨hstart, hstate⟩ | ⟨hstart, earlier, last, later, rfl, hlast, hstate, hlater⟩)
    · exact ⟨lines, line, [], rfl, hstart, hstate, by simp⟩
    · refine ⟨earlier, last, later ++ [line], by simp, hlast, hstate, fun other hother => ?_⟩
      rcases List.mem_append.1 hother with hother | hother
      · exact hlater other hother
      · rwa [List.mem_singleton.1 hother]

theorem mem_starts_iff {lines : List Value} {start : Int} :
    start ∈ starts lines ↔ ∃ state, LastState lines start state := by
  constructor
  · rintro ⟨line, hline, hstart⟩
    induction lines using List.reverseRecOn with
    | nil => cases hline
    | append_singleton lines last ih =>
        by_cases hlast : last.part "start" = .int start
        · exact ⟨_, lastState_concat.2 (.inl ⟨hlast, rfl⟩)⟩
        · have hmem : line ∈ lines := by
            rcases List.mem_append.1 hline with hline | hline
            · exact hline
            · rw [List.mem_singleton.1 hline] at hstart
              exact absurd hstart hlast
          obtain ⟨state, hstate⟩ := ih hmem
          exact ⟨state, lastState_concat.2 (.inr ⟨hlast, hstate⟩)⟩
  · rintro ⟨state, earlier, line, later, rfl, hstart, -, -⟩
    exact ⟨line, by simp, hstart⟩

namespace LineStates

/-- The table has the last state of every start and nothing else. -/
structure Holds (states : LineStates) (lines : List Value) : Prop where
  keys : ∀ entry ∈ states, ∃ start, entry.1 = .int start
  get?_iff : ∀ start state, states.get? (.int start) = some state ↔ LastState lines start state

theorem get?_cons_int (start position : Int) (state : Value) (states : LineStates) :
    get? ((.int start, state) :: states) (.int position) =
      if start = position then some state else get? states (.int position) := by
  rw [get?, List.find?_cons, Value.sameMember_int]
  split_ifs with heq
  · simp [heq]
  · simp [heq, get?]

theorem get?_put (states : LineStates) (hkeys : ∀ entry ∈ states, ∃ start, entry.1 = .int start)
    (start position : Int) (state : Value) :
    get? (put states (.int start) state) (.int position) =
      if start = position then some state else get? states (.int position) := by
  induction states with
  | nil => exact get?_cons_int start position state []
  | cons entry states ih =>
      obtain ⟨key, old⟩ := entry
      obtain ⟨known, rfl⟩ : ∃ known, key = .int known := hkeys _ List.mem_cons_self
      rw [put, Value.sameMember_int]
      by_cases hknown : known = start
      · subst hknown
        simp only [decide_true, if_true, get?_cons_int]
        split_ifs <;> rfl
      · rw [if_neg (by simpa using hknown), get?_cons_int,
          ih fun entry hentry => hkeys entry (List.mem_cons_of_mem _ hentry), get?_cons_int]
        split_ifs <;> simp_all

theorem keys_put {states : LineStates} {position state : Value} {entry : Value × Value}
    (hentry : entry ∈ put states position state) :
    entry.1 = position ∨ ∃ other ∈ states, other.1 = entry.1 := by
  induction states with
  | nil =>
      rw [put, List.mem_singleton] at hentry
      exact .inl (congrArg Prod.fst hentry)
  | cons known states ih =>
      rw [put] at hentry
      split_ifs at hentry with hknown
      · rcases List.mem_cons.1 hentry with rfl | hentry
        · exact .inr ⟨known, by simp, rfl⟩
        · exact .inr ⟨entry, by simp [hentry], rfl⟩
      · rcases List.mem_cons.1 hentry with rfl | hentry
        · exact .inr ⟨known, by simp, rfl⟩
        · rcases ih hentry with hposition | ⟨other, hother, heq⟩
          · exact .inl hposition
          · exact .inr ⟨other, by simp [hother], heq⟩

theorem holds_nil : Holds [] [] where
  keys := by simp
  get?_iff start state := by
    constructor
    · intro hget
      cases hget
    · rintro ⟨earlier, line, later, hlines, -⟩
      simp at hlines

/-- A line without a start changes nothing. -/
theorem Holds.skip {states : LineStates} {lines : List Value} {line : Value}
    (hholds : states.Holds lines) (hline : line.part "start" = .null) :
    states.Holds (lines ++ [line]) where
  keys := hholds.keys
  get?_iff start state := by
    rw [hholds.get?_iff, lastState_concat, hline]
    simp

theorem Holds.put {states : LineStates} {lines : List Value} {line : Value} {start : Int}
    (hholds : states.Holds lines) (hline : line.part "start" = .int start) :
    (states.put (.int start) (line.part "state")).Holds (lines ++ [line]) where
  keys := by
    intro entry hentry
    rcases keys_put hentry with hposition | ⟨other, hother, heq⟩
    · exact ⟨start, hposition⟩
    · rw [← heq]
      exact hholds.keys other hother
  get?_iff position state := by
    rw [get?_put states hholds.keys, lastState_concat, hline]
    split_ifs with heq
    · simp [heq]
    · simp [heq, hholds.get?_iff]

/-- The entry that a line gives. -/
def lineEntry (line : Value) : Option (Value × Value) :=
  match line.part "start" with
  | .null => none
  | start => some (start, line.part "state")

theorem lineEntryOf?_eq_ok {line : Value} (hline : IsLine line) :
    lineEntryOf? line = .ok (lineEntry line) := by
  obtain ⟨hrecord, hstart⟩ := hline
  rw [lineEntryOf?, hrecord.find, hrecord.find, lineEntry]
  rcases hstart with hstart | ⟨start, hstart⟩
  · rw [hstart]
    rfl
  · rw [hstart]
    rfl

theorem ofEntries_concat (entries : List (Value × Value)) (start : Int) (state : Value) :
    ofEntries (entries ++ [(.int start, state)]) =
      ofEntries entries >>= fun states => .ok (states.put (.int start) state) := by
  rw [ofEntries, List.foldlM_append]
  rfl

theorem ofLines_holds {lines : List Value} (hlines : ∀ line ∈ lines, IsLine line) :
    ∃ states, ofLines (.arr lines) = .ok states ∧ states.Holds lines := by
  have hentries : lines.filterMapM lineEntryOf? = .ok (lines.filterMap lineEntry) :=
    filterMapM_eq_ok_filterMap fun line hline => lineEntryOf?_eq_ok (hlines line hline)
  have hofLines : ofLines (.arr lines) = ofEntries (lines.filterMap lineEntry) := by
    show (lines.filterMapM lineEntryOf? >>= ofEntries) = _
    rw [hentries]
    rfl
  rw [hofLines]
  clear hentries hofLines
  induction lines using List.reverseRecOn with
  | nil => exact ⟨[], rfl, holds_nil⟩
  | append_singleton lines line ih =>
      obtain ⟨states, hstates, hholds⟩ := ih fun line hline => hlines line (by simp [hline])
      rcases (hlines line (by simp)).2 with hstart | ⟨start, hstart⟩
      · refine ⟨states, ?_, hholds.skip hstart⟩
        rw [List.filterMap_append]
        simp [lineEntry, hstart, hstates]
      · refine ⟨states.put (.int start) (line.part "state"), ?_, hholds.put hstart⟩
        have hentry : [line].filterMap lineEntry = [(.int start, line.part "state")] := by
          simp [lineEntry, hstart]
        rw [List.filterMap_append, hentry, ofEntries_concat, hstates]
        rfl

/-! ### The nearest start -/

/-- Among sorted keys, the last one that is not after a position is the greatest such key. -/
theorem lastAtMost_cases {keys : List Value} (hkeys : ∀ key ∈ keys, ∃ start, key = .int start)
    (hordered : keys.Pairwise fun a b => a.asInt ≤ b.asInt) (position : Int) (best : Option Value) :
    lastAtMost (.int position) best keys = .ok best ∧ (∀ start, .int start ∈ keys → position < start) ∨
      ∃ start, lastAtMost (.int position) best keys = .ok (some (.int start)) ∧
        IsGreatest {start | .int start ∈ keys ∧ start ≤ position} start := by
  induction keys generalizing best with
  | nil => exact .inl ⟨rfl, by simp⟩
  | cons key keys ih =>
      obtain ⟨first, rfl⟩ := hkeys _ List.mem_cons_self
      obtain ⟨hfirst, hordered⟩ := List.pairwise_cons.1 hordered
      have hrest := fun key hkey => hkeys key (List.mem_cons_of_mem _ hkey)
      have hle : ∀ start, .int start ∈ keys → first ≤ start := fun start hstart => hfirst _ hstart
      rw [lastAtMost, Value.atMost_int]
      by_cases hposition : first ≤ position
      · right
        rw [decide_eq_true hposition]
        rcases ih hrest hordered (some (.int first)) with ⟨hlast, hafter⟩ | ⟨start, hlast, hgreatest⟩
        · refine ⟨first, hlast, ⟨List.mem_cons_self, hposition⟩, ?_⟩
          rintro start ⟨hstart, hstartPosition⟩
          rcases List.mem_cons.1 hstart with hstart | hstart
          · cases hstart
            exact le_rfl
          · exact absurd (hafter start hstart) (not_lt.2 hstartPosition)
        · refine ⟨start, hlast, ⟨List.mem_cons_of_mem _ hgreatest.1.1, hgreatest.1.2⟩, ?_⟩
          rintro other ⟨hother, hotherPosition⟩
          rcases List.mem_cons.1 hother with hother | hother
          · cases hother
            exact hle start hgreatest.1.1
          · exact hgreatest.2 ⟨hother, hotherPosition⟩
      · left
        rw [decide_eq_false hposition]
        refine ⟨rfl, fun start hstart => ?_⟩
        rcases List.mem_cons.1 hstart with hstart | hstart
        · cases hstart
          exact not_le.1 hposition
        · exact (not_le.1 hposition).trans_le (hle start hstart)

variable {states : LineStates} {lines : List Value}

theorem Holds.int_mem_keys (hholds : states.Holds lines) {start : Int} :
    .int start ∈ states.map (·.1) ↔ start ∈ starts lines := by
  rw [mem_starts_iff]
  simp only [← hholds.get?_iff]
  rw [← Option.isSome_iff_exists, get?, Option.isSome_map, List.find?_isSome, List.mem_map]
  constructor
  · rintro ⟨entry, hentry, hkey⟩
    refine ⟨entry, hentry, ?_⟩
    rw [hkey, Value.sameMember_int, decide_eq_true rfl]
  · rintro ⟨entry, hentry, hsame⟩
    obtain ⟨known, hknown⟩ := hholds.keys entry hentry
    rw [hknown, Value.sameMember_int, decide_eq_true_eq] at hsame
    exact ⟨entry, hentry, by rw [hknown, hsame]⟩

theorem Holds.nearest?_cases (hholds : states.Holds lines) (position : Int) :
    states.nearest? (.int position) = .ok none ∧ (∀ start ∈ starts lines, position < start) ∨
      ∃ start, states.nearest? (.int position) = .ok (some (.int start)) ∧
        IsGreatest {start ∈ starts lines | start ≤ position} start := by
  have hkeys : ∀ key ∈ states.map (·.1), ∃ start, key = .int start := by
    intro key hkey
    obtain ⟨entry, hentry, rfl⟩ := List.mem_map.1 hkey
    exact hholds.keys entry hentry
  have hless : ∀ a ∈ states.map (·.1), ∀ b ∈ states.map (·.1), a.less b = pure (decide (a.asInt < b.asInt)) := by
    intro a ha b hb
    obtain ⟨m, rfl⟩ := hkeys a ha
    obtain ⟨n, rfl⟩ := hkeys b hb
    exact Value.less_int m n
  obtain ⟨sorted, hsort, hsorted⟩ := Sorting.sortM_eq_pure hless
  rw [nearest?, hsort, pure_bind]
  have hmem : ∀ start, .int start ∈ sorted ↔ start ∈ starts lines := fun start =>
    hsorted.mem_iff.trans hholds.int_mem_keys
  have hcases := lastAtMost_cases (fun key hkey => hkeys key (hsorted.mem_iff.1 hkey)) hsorted.ordered
    position none
  simpa only [hmem] using hcases

/-- Both ways to ask for the state at a position agree. -/
theorem Holds.lineAt (hholds : states.Holds lines) (position : Int) :
    ∃ line state, LineAt lines position line state ∧
      states.lineAndState (.int position) = .ok (line, state) ∧
      states.state (.int position) = .ok state := by
  rcases hholds.nearest?_cases position with ⟨hnearest, hbefore⟩ | ⟨start, hnearest, hgreatest⟩
  · have hnone : states.get? (.int position) = none := by
      rw [Option.eq_none_iff_forall_ne_some]
      intro state hget
      have hmem := mem_starts_iff.2 ⟨state, (hholds.get?_iff position state).1 hget⟩
      exact lt_irrefl _ (hbefore position hmem)
    have hline : states.lineAndState (.int position) = .ok (.null, .null) := by
      rw [lineAndState, hnearest]
      rfl
    refine ⟨.null, .null, .before hbefore, hline, ?_⟩
    rw [state, hnone, hline]
    rfl
  · obtain ⟨state, hlast⟩ := mem_starts_iff.1 hgreatest.1.1
    have hget := (hholds.get?_iff start state).2 hlast
    have hline : states.lineAndState (.int position) = .ok (.int start, state) := by
      rw [lineAndState, hnearest]
      show Except.ok (Value.int start, (states.get? (.int start)).getD .null) = _
      rw [hget]
      rfl
    refine ⟨.int start, state, .on hgreatest hlast, hline, ?_⟩
    rw [LineStates.state, hline]
    cases hexact : states.get? (.int position) with
    | none => rfl
    | some other =>
        -- A start that is the position itself is the greatest that is not after it.
        have hmem := mem_starts_iff.2 ⟨other, (hholds.get?_iff position other).1 hexact⟩
        have hstart : start = position := le_antisymm hgreatest.1.2 (hgreatest.2 ⟨hmem, le_rfl⟩)
        rw [← hstart, hget] at hexact
        cases hexact
        rfl

end LineStates

end ProofDump.Dataset
