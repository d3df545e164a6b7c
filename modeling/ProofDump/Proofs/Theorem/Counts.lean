import Mathlib
import ProofDump.Proofs.Theorem.Data

/-!
# Counting the operators of exported lines

The table of operators is shared by all calls of a session. One theorem raises one count by one
(`add_risesBy`), and what a call did to the table can be put together from what its theorems did
(`RisesBy.trans`). A theorem of a typed dump is written before it is counted, and what is written is counted
in any case, so a call counts just the lines that it returns. The exception is a theorem with a number of too
many digits: it ends the call after the theorems before it were counted.
-/

namespace ProofDump

namespace Theorem

/-! ### Tables of operators -/

namespace Counts

/-- The count of an operator, zero if it has none. -/
def countOf (counts : Counts) (operator : String) : Int :=
  ((counts.find? fun entry => entry.1.same (.str operator)).bind fun entry => entry.2.integer?).getD 0

def AreIntegers (counts : Counts) : Prop := ∀ entry ∈ counts, entry.2.integer?.isSome = true

/-- The entry is under none of these operators. -/
def isOther (named : List String) (entry : Value × Value) : Bool :=
  named.all fun operator => !entry.1.same (.str operator)

/-- The table where these operators were counted: each count is higher by the times its operator was counted,
other entries stay as they are, and operators that had no entry have new ones, after the old ones. -/
structure RisesBy (counts : Counts) (named : List String) (result : Counts) : Prop where
  valid : ∀ operator ∈ named, operator ∈ operators
  count : ∀ operator, result.countOf operator = counts.countOf operator + named.count operator
  others : result.filter (isOther named) = counts.filter (isOther named)
  keys : ∃ added : List String, result.map Prod.fst = counts.map Prod.fst ++ added.map .str ∧
    added.Nodup ∧ ∀ operator ∈ added, operator ∈ named ∧ .str operator ∉ counts.map Prod.fst

theorem countOf_cons (entry : Value × Value) (counts : Counts) (operator : String) :
    countOf (entry :: counts) operator =
      if entry.1.same (.str operator) then entry.2.integer?.getD 0 else countOf counts operator := by
  rw [countOf, List.find?_cons]
  cases entry.1.same (.str operator) with
  | true => rfl
  | false => rfl

theorem isOther_iff {named : List String} {entry : Value × Value} :
    isOther named entry = true ↔ ∀ operator ∈ named, entry.1 ≠ .str operator := by
  simp [isOther, ← Value.same_str_iff]

theorem isOther_append (first second : List String) (entry : Value × Value) :
    isOther (first ++ second) entry = (isOther first entry && isOther second entry) := by
  rw [isOther, List.all_append]
  rfl

/-- Counting nothing. -/
theorem RisesBy.refl (counts : Counts) : RisesBy counts [] counts where
  valid := List.forall_mem_nil _
  count := fun operator => (Int.add_zero _).symm
  others := rfl
  keys := ⟨[], by simp, List.nodup_nil, List.forall_mem_nil _⟩

theorem RisesBy.trans {counts between result : Counts} {first second : List String}
    (hfirst : RisesBy counts first between) (hsecond : RisesBy between second result) :
    RisesBy counts (first ++ second) result where
  valid := List.forall_mem_append.2 ⟨hfirst.valid, hsecond.valid⟩
  count := by
    intro operator
    rw [hsecond.count, hfirst.count, List.count_append]
    omega
  others := by
    have hboth (table : Counts) :
        table.filter (isOther (first ++ second)) = (table.filter (isOther first)).filter (isOther second) := by
      rw [List.filter_filter]
      exact List.filter_congr fun entry _ => (isOther_append first second entry).trans (Bool.and_comm _ _)
    have hswap (table : Counts) :
        table.filter (isOther (first ++ second)) = (table.filter (isOther second)).filter (isOther first) := by
      rw [List.filter_filter]
      exact List.filter_congr fun entry _ => isOther_append first second entry
    rw [hswap, hsecond.others, ← hswap, hboth, hfirst.others, ← hboth]
  keys := by
    obtain ⟨added, hkeys, hnodup, hadded⟩ := hfirst.keys
    obtain ⟨later, hlaterKeys, hlaterNodup, hlater⟩ := hsecond.keys
    refine ⟨added ++ later, ?_, ?_, ?_⟩
    · rw [hlaterKeys, hkeys, List.append_assoc, List.map_append]
    · refine List.nodup_append.2 ⟨hnodup, hlaterNodup, ?_⟩
      rintro operator hold _ hnew rfl
      apply (hlater operator hnew).2
      rw [hkeys]
      exact List.mem_append_right _ (List.mem_map_of_mem hold)
    · refine List.forall_mem_append.2 ⟨fun operator hmem => ?_, fun operator hmem => ?_⟩
      · exact ⟨List.mem_append_left _ (hadded operator hmem).1, (hadded operator hmem).2⟩
      · refine ⟨List.mem_append_right _ (hlater operator hmem).1, fun hkey => (hlater operator hmem).2 ?_⟩
        rw [hkeys]
        exact List.mem_append_left _ hkey

/-- In which order operators were counted does not matter. -/
theorem RisesBy.perm {counts result : Counts} {first second : List String} (hrises : RisesBy counts first result)
    (hperm : first.Perm second) : RisesBy counts second result where
  valid := fun operator hoperator => hrises.valid operator (hperm.mem_iff.2 hoperator)
  count := fun operator => hperm.count_eq operator ▸ hrises.count operator
  others := by
    have hsame : isOther second = isOther first := funext fun entry => hperm.symm.all_eq
    rw [hsame, hrises.others]
  keys := by
    obtain ⟨added, hkeys, hnodup, hadded⟩ := hrises.keys
    exact ⟨added, hkeys, hnodup, fun operator hoperator => (hadded operator hoperator).imp_left hperm.mem_iff.1⟩

theorem RisesBy.cons {counts result : Counts} {named : List String} (hrises : RisesBy counts named result)
    {entry : Value × Value} (hother : isOther named entry = true) :
    RisesBy (entry :: counts) named (entry :: result) where
  valid := hrises.valid
  count := by
    intro operator
    rw [countOf_cons, countOf_cons]
    split
    · rename_i hsame
      have hnone : operator ∉ named := fun hnamed =>
        isOther_iff.1 hother operator hnamed (Value.same_str_iff.1 hsame)
      rw [List.count_eq_zero.2 hnone]
      exact (Int.add_zero _).symm
    · exact hrises.count operator
  others := by
    rw [List.filter_cons_of_pos hother, List.filter_cons_of_pos hother, hrises.others]
  keys := by
    obtain ⟨added, hkeys, hnodup, hadded⟩ := hrises.keys
    refine ⟨added, by rw [List.map_cons, hkeys, List.map_cons, List.cons_append], hnodup, ?_⟩
    intro operator hoperator
    obtain ⟨hnamed, hnew⟩ := hadded operator hoperator
    refine ⟨hnamed, ?_⟩
    rw [List.map_cons, List.mem_cons, not_or]
    exact ⟨fun hkey => isOther_iff.1 hother operator hnamed hkey.symm, hnew⟩

/-- The first count of an operator. -/
theorem risesBy_new {operator : String} (hoperator : operator ∈ operators) :
    RisesBy [] [operator] [(.str operator, .int 1)] where
  valid := List.forall_mem_singleton.2 hoperator
  count := by
    intro other
    rw [countOf_cons, Value.same_str, List.count_singleton]
    by_cases hsame : operator = other
    · simp [hsame, countOf, Value.integer?]
    · simp [hsame, countOf]
  others := by simp [isOther, Value.same_str]
  keys := ⟨[operator], rfl, List.nodup_singleton _, by simp⟩

/-- A count more of an operator that was counted before. -/
theorem risesBy_more {operator : String} (hoperator : operator ∈ operators) {count : Value} {n : Int}
    (hcount : count.integer? = some n) (counts : Counts) :
    RisesBy ((.str operator, count) :: counts) [operator] ((.str operator, .int (n + 1)) :: counts) where
  valid := List.forall_mem_singleton.2 hoperator
  count := by
    intro other
    rw [countOf_cons, countOf_cons, Value.same_str, List.count_singleton, hcount]
    by_cases hsame : operator = other
    · simp [hsame, Value.integer?]
    · simp [hsame]
  others := by simp [isOther, Value.same_str]
  keys := ⟨[], by simp, List.nodup_nil, List.forall_mem_nil _⟩

theorem plus_of_integer {count : Value} {n : Int} (hcount : count.integer? = some n) :
    count.plus 1 = .ok (.int (n + 1)) := by
  cases count with
  | int m =>
      cases hcount
      rfl
  | bool b =>
      cases hcount
      rfl
  | _ => cases hcount

theorem add_risesBy {counts : Counts} (hcounts : counts.AreIntegers) {operator : String}
    (hoperator : operator ∈ operators) :
    ∃ result, add counts operator = .ok result ∧ RisesBy counts [operator] result ∧ result.AreIntegers := by
  induction counts with
  | nil => exact ⟨_, rfl, risesBy_new hoperator, List.forall_mem_singleton.2 rfl⟩
  | cons entry counts ih =>
      obtain ⟨hentry, hrest⟩ := List.forall_mem_cons.1 hcounts
      obtain ⟨key, count⟩ := entry
      obtain ⟨n, hcount⟩ := Option.isSome_iff_exists.1 hentry
      rw [add]
      by_cases hsame : key.same (.str operator) = true
      · cases Value.same_str_iff.1 hsame
        refine ⟨_, ?_, risesBy_more hoperator hcount counts, List.forall_mem_cons.2 ⟨rfl, hrest⟩⟩
        rw [if_pos hsame, plus_of_integer hcount]
        rfl
      · obtain ⟨result, hadd, hrises, hintegers⟩ := ih hrest
        have hother : isOther [operator] (key, count) = true := by simp [isOther, hsame]
        refine ⟨(key, count) :: result, ?_, hrises.cons hother, List.forall_mem_cons.2 ⟨hentry, hintegers⟩⟩
        rw [if_neg hsame, hadd]
        rfl

end Counts

/-! ### Exporting theorems -/

/-- The operator that a line names. -/
def lineOperator? (line : String) : Option String :=
  match Json.read line with
  | .ok record => (record.part "theorem_operator").text?
  | .error _ => none

/-- The operators that lines name, in the order of the lines. -/
def lineOperators (lines : List String) : List String := lines.filterMap lineOperator?

theorem lineOperator?_line {record : Value} {operator : String} (hreadable : record.IsReadable)
    (hoperator : record.held.part "theorem_operator" = .str operator) :
    lineOperator? (Json.line record) = some operator := by
  simp only [lineOperator?, Json.line, Json.read_write .full hreadable, hoperator, Value.text?]

/-- What exporting theorems comes to: a line for each of them if all their numbers are short, and otherwise an
end at the first that has a number with too many digits. What was written is counted in both cases. -/
inductive Outcome (counts : Counts) (theorems : List Theorem) : Except Fault (List String) → Counts → Prop
  | done {lines : List String} {result : Counts} (hshort : ∀ found ∈ theorems, found.isShort = true)
      (hlines : lines.map lineOperator? = theorems.map fun found => some found.operator)
      (hcounts : counts.RisesBy (theorems.map Theorem.operator) result) : Outcome counts theorems (.ok lines) result
  | stopped {written rest : List Theorem} {last : Theorem} {result : Counts}
      (htheorems : theorems = written ++ last :: rest) (hshort : ∀ found ∈ written, found.isShort = true)
      (hlong : last.isShort = false) (hcounts : counts.RisesBy (written.map Theorem.operator) result) :
      Outcome counts theorems (.error Value.tooManyDigits) result

/-- The theorems exported before have their lines and are counted. -/
theorem exportAll_outcome {start counts : Counts} {exported theorems : List Theorem} {lines : List String}
    (hcounts : counts.AreIntegers) (hprintable : ∀ found ∈ theorems, found.IsPrintable)
    (hexported : ∀ found ∈ exported, found.isShort = true)
    (hrises : start.RisesBy (exported.map Theorem.operator) counts)
    (hlines : lines.map lineOperator? = exported.map fun found => some found.operator) (module : String) :
    Outcome start (exported ++ theorems) (exportAll module lines counts theorems).1
        (exportAll module lines counts theorems).2 ∧
      (exportAll module lines counts theorems).2.AreIntegers := by
  induction theorems generalizing exported lines counts with
  | nil =>
      rw [List.append_nil]
      exact ⟨.done hexported hlines hrises, hcounts⟩
  | cons found theorems ih =>
      obtain ⟨hfound, hothers⟩ := List.forall_mem_cons.1 hprintable
      obtain ⟨record, hdata, hrecord⟩ := data_eq_ite hfound module
      by_cases hshort : found.isShort = true
      · rw [if_pos hshort] at hdata
        obtain ⟨hreadable, hoperator⟩ := hrecord hshort
        obtain ⟨result, hadd, hresult, hintegers⟩ := Counts.add_risesBy hcounts hfound.operator
        have hline := lineOperator?_line hreadable hoperator
        have hstep : exportAll module lines counts (found :: theorems) =
            exportAll module (lines ++ [Json.line record]) result theorems := by
          simp only [exportAll, hdata, hadd]
        rw [hstep, List.append_cons]
        refine ih hintegers hothers ?_ ?_ ?_
        · exact List.forall_mem_append.2 ⟨hexported, List.forall_mem_singleton.2 hshort⟩
        · rw [List.map_append]
          exact hrises.trans hresult
        · rw [List.map_append, hlines, List.map_append, List.map_singleton, List.map_singleton, hline]
      · rw [if_neg hshort] at hdata
        have hstep : exportAll module lines counts (found :: theorems) = (.error Value.tooManyDigits, counts) := by
          simp only [exportAll, hdata]
        rw [hstep]
        exact ⟨.stopped rfl hexported (Bool.eq_false_of_not_eq_true hshort) hrises, hcounts⟩

theorem exportAll_outcome_nil {counts : Counts} {theorems : List Theorem} (hcounts : counts.AreIntegers)
    (hprintable : ∀ found ∈ theorems, found.IsPrintable) (module : String) :
    Outcome counts theorems (exportAll module [] counts theorems).1 (exportAll module [] counts theorems).2 ∧
      (exportAll module [] counts theorems).2.AreIntegers := by
  have hnone : counts.RisesBy (([] : List Theorem).map Theorem.operator) counts := .refl counts
  exact exportAll_outcome hcounts hprintable (List.forall_mem_nil _) hnone rfl module

/-! ### Calls and sessions -/

/-- What a call does to the table, by the case that it is. The first two fail before they export a theorem and
leave the table as it is. A call whose theorems have short numbers only returns their lines and counts the
operators of these lines. Any other ends at the first theorem with a number of too many digits, after it counted
the theorems before that one. -/
inductive Accounted (files : Option FileTree) (root : String) (dumps : Dumps) (module : Value) (counts : Counts) :
    Exported → Prop
  | unread {fault : Fault} {printed : String}
      (hfault : (ofModule files root dumps module).fault = some fault) :
      Accounted files root dumps module counts ⟨.error fault, counts, printed⟩
  | unnamed {fault : Fault} {printed : String} (hread : (ofModule files root dumps module).fault = none)
      (hfault : module.joinRaw "." = .error fault) :
      Accounted files root dumps module counts ⟨.error fault, counts, printed⟩
  | returned {lines : List String} {result : Counts} {printed : String}
      (hread : (ofModule files root dumps module).fault = none) (hnamed : (module.joinRaw ".").isOk = true)
      (hshort : ∀ found ∈ (ofModule files root dumps module).theorems, found.isShort = true)
      (hlines : lines.map lineOperator? =
        (ofModule files root dumps module).theorems.map fun found => some found.operator)
      (hcounts : counts.RisesBy (lineOperators lines) result) :
      Accounted files root dumps module counts ⟨.ok lines, result, printed⟩
  | stopped {written rest : List Theorem} {last : Theorem} {result : Counts} {printed : String}
      (hread : (ofModule files root dumps module).fault = none) (hnamed : (module.joinRaw ".").isOk = true)
      (htheorems : (ofModule files root dumps module).theorems = written ++ last :: rest)
      (hshort : ∀ found ∈ written, found.isShort = true) (hlong : last.isShort = false)
      (hcounts : counts.RisesBy (written.map Theorem.operator) result) :
      Accounted files root dumps module counts ⟨.error Value.tooManyDigits, result, printed⟩

/-- The operators that a call counts without a line: those of the theorems before the first with a number of too
many digits, if the call comes to one. -/
def countedAlone (files : Option FileTree) (root : String) (dumps : Dumps) (module : Value) : List String :=
  let harvest := ofModule files root dumps module
  if harvest.fault.isNone && (module.joinRaw ".").isOk && !harvest.theorems.all Theorem.isShort then
    (harvest.theorems.takeWhile Theorem.isShort).map Theorem.operator
  else []

theorem lineOperators_eq {lines : List String} {theorems : List Theorem}
    (hlines : lines.map lineOperator? = theorems.map fun found => some found.operator) :
    lineOperators lines = theorems.map Theorem.operator := by
  calc lineOperators lines = (lines.map lineOperator?).filterMap id := by rw [List.filterMap_map]; rfl
    _ = theorems.map Theorem.operator := by rw [hlines, List.filterMap_map]; exact congrFun List.filterMap_eq_map _

theorem get_isTyped {dumps : Dumps} (htyped : ∀ entry ∈ dumps, entry.2.IsTyped) {module : Value} {dump : Dump}
    (hdump : dumps.get module = .ok dump) : dump.IsTyped := by
  obtain ⟨name, -, hdump⟩ := bind_eq_ok.1 hdump
  cases hdump
  cases hlookup : dumps.lookup name with
  | none => exact ⟨List.forall_mem_nil _, List.forall_mem_nil _⟩
  | some dump =>
      obtain ⟨before, after, rfl, -⟩ := List.lookup_eq_some_iff.1 hlookup
      exact htyped (name, dump) (List.mem_append_right _ List.mem_cons_self)

/-- The table that calls leave. -/
def tableAfter (counts : Counts) (calls : List Exported) : Counts :=
  (calls.getLast?.map Exported.counts).getD counts

/-- The lines that calls return. -/
def returnedLines (calls : List Exported) : List String :=
  calls.flatMap fun call => call.lines.toOption.getD []

theorem tableAfter_cons (counts : Counts) (call : Exported) (calls : List Exported) :
    tableAfter counts (call :: calls) = tableAfter call.counts calls := by
  cases calls with
  | nil => rfl
  | cons next calls => rw [tableAfter, List.getLast?_cons_cons]; rfl

theorem lineOperators_returnedLines_cons (call : Exported) (calls : List Exported) :
    lineOperators (returnedLines (call :: calls)) =
      lineOperators (call.lines.toOption.getD []) ++ lineOperators (returnedLines calls) := by
  rw [returnedLines, List.flatMap_cons, lineOperators, List.filterMap_append]
  rfl

theorem length_exportSession (files : Option FileTree) (root : String) (dumps : Dumps) (counts : Counts)
    (modules : List Value) : (exportSession files root dumps counts modules).length = modules.length := by
  induction modules generalizing counts with
  | nil => rfl
  | cons module modules ih => rw [exportSession, List.length_cons, List.length_cons, ih]

/-- A call counts the operators of the lines that it returns, and those that it counts without a line. -/
theorem Accounted.risesBy {files : Option FileTree} {root : String} {dumps : Dumps} {module : Value}
    {counts : Counts} {call : Exported} (haccounted : Accounted files root dumps module counts call) :
    counts.RisesBy (lineOperators (call.lines.toOption.getD []) ++ countedAlone files root dumps module)
      call.counts := by
  cases haccounted with
  | unread hfault =>
      rw [countedAlone, hfault]
      exact .refl counts
  | unnamed hread hfault =>
      rw [countedAlone, hread, hfault]
      exact .refl counts
  | @returned lines result _ hread hnamed hshort hlines hcounts =>
      have halone : countedAlone files root dumps module = [] := by
        simp [countedAlone, List.all_eq_true.2 hshort]
      rw [halone, List.append_nil]
      exact hcounts
  | @stopped written rest last result _ hread hnamed htheorems hshort hlong hcounts =>
      have halone : countedAlone files root dumps module = written.map Theorem.operator := by
        have hall : (written ++ last :: rest).all Theorem.isShort = false := by
          rw [List.all_append, List.all_cons, hlong, Bool.false_and, Bool.and_false]
        rw [countedAlone, hread, hnamed, htheorems, hall, List.takeWhile_append_of_pos hshort,
          List.takeWhile_cons_of_neg (by simp [hlong]), List.append_nil]
        rfl
      rw [halone]
      exact hcounts

section Session

variable {files : Option FileTree} {root : String} {dumps : Dumps} (htyped : ∀ entry ∈ dumps, entry.2.IsTyped)
  {counts : Counts} (hcounts : counts.AreIntegers)

include htyped hcounts

theorem exportModule_accounted (module : Value) :
    Accounted files root dumps module counts (exportModule files root dumps counts module) ∧
      (exportModule files root dumps counts module).counts.AreIntegers := by
  cases hread : (ofModule files root dumps module).fault with
  | some fault =>
      simp only [exportModule, hread]
      exact ⟨.unread hread, hcounts⟩
  | none =>
      cases hname : module.joinRaw "." with
      | error fault =>
          simp only [exportModule, hread, hname]
          exact ⟨.unnamed hread hname, hcounts⟩
      | ok name =>
          obtain ⟨dump, hdump⟩ : ∃ dump, dumps.get module = .ok dump := by
            cases hdump : dumps.get module with
            | error fault => simp [ofModule, hdump] at hread
            | ok dump => exact ⟨dump, rfl⟩
          have hprintable := isPrintable_of_ofModule hdump (get_isTyped htyped hdump) hread
          obtain ⟨houtcome, hintegers⟩ := exportAll_outcome_nil hcounts hprintable name
          have hnamed : (module.joinRaw ".").isOk = true := by rw [hname]; rfl
          simp only [exportModule, hread, hname]
          refine ⟨?_, hintegers⟩
          generalize exportAll name [] counts (ofModule files root dumps module).theorems = exported at houtcome
          obtain ⟨lines, result⟩ := exported
          cases houtcome with
          | done hshort hlines hrises =>
              exact .returned hread hnamed hshort hlines (lineOperators_eq hlines ▸ hrises)
          | stopped htheorems hshort hlong hrises => exact .stopped hread hnamed htheorems hshort hlong hrises

theorem exportSession_accounted {modules : List Value} {earlier later : List (Value × Exported)} {module : Value}
    {call : Exported}
    (hcall : modules.zip (exportSession files root dumps counts modules) = earlier ++ (module, call) :: later) :
    Accounted files root dumps module (tableAfter counts (earlier.map Prod.snd)) call := by
  induction modules generalizing counts earlier with
  | nil => cases earlier <;> cases hcall
  | cons first modules ih =>
      obtain ⟨haccounted, hintegers⟩ := exportModule_accounted htyped hcounts first
      rw [exportSession, List.zip_cons_cons] at hcall
      cases earlier with
      | nil =>
          cases hcall
          exact haccounted
      | cons pair earlier =>
          obtain ⟨rfl, hrest⟩ := List.cons.inj hcall
          rw [List.map_cons, tableAfter_cons]
          exact ih hintegers hrest

theorem exportSession_risesBy (modules : List Value) :
    counts.RisesBy
      (lineOperators (returnedLines (exportSession files root dumps counts modules)) ++
        modules.flatMap (countedAlone files root dumps))
      (tableAfter counts (exportSession files root dumps counts modules)) := by
  induction modules generalizing counts with
  | nil => exact .refl counts
  | cons module modules ih =>
      obtain ⟨haccounted, hintegers⟩ := exportModule_accounted htyped hcounts module
      rw [exportSession, lineOperators_returnedLines_cons, tableAfter_cons, List.flatMap_cons]
      refine (haccounted.risesBy.trans (ih hintegers)).perm ?_
      rw [List.append_assoc, List.append_assoc]
      exact (List.perm_append_comm_assoc _ _ _).append_left _

end Session

/-- In a session over typed dumps, from a table of integers, every call is accounted for against the table that
the calls before it left. The whole session raises the table by the operators of all returned lines and by those
that calls which a number of too many digits ended had counted before it, and by nothing else. -/
theorem counts_match_lines (files : Option FileTree) (root : String) {dumps : Dumps}
    (htyped : ∀ entry ∈ dumps, entry.2.IsTyped) {counts : Counts} (hcounts : counts.AreIntegers)
    (modules : List Value) :
    (exportSession files root dumps counts modules).length = modules.length ∧
      (∀ earlier module call later,
        modules.zip (exportSession files root dumps counts modules) = earlier ++ (module, call) :: later →
          Accounted files root dumps module (tableAfter counts (earlier.map Prod.snd)) call) ∧
      counts.RisesBy
        (lineOperators (returnedLines (exportSession files root dumps counts modules)) ++
          modules.flatMap (countedAlone files root dumps))
        (tableAfter counts (exportSession files root dumps counts modules)) :=
  ⟨length_exportSession files root dumps counts modules,
    fun _ _ _ _ hcall => exportSession_accounted htyped hcounts hcall,
    exportSession_risesBy htyped hcounts modules⟩

/-! ### Two proofs in one module -/

def rflDeclaration (name : String) (stop : Nat) : Value :=
  .obj [("kind", .str "theorem"), ("name", .arr [.str name]),
    ("ref", .obj [("pp", .str "r"), ("range", .arr [.int 0, .int 10])]),
    ("signature", .obj [("pp", .str "s"), ("range", .arr [.int 0, .int 1])]),
    ("value", .obj [("pp", .str ":= by rfl"), ("range", .arr [.int 2, .int stop])])]

def rflTree : Value :=
  .obj [("info", .obj [("simple", .str "command")]),
    ("ref", .obj [("pp", .str "c"), ("range", .arr [.int 0, .int 10])]),
    ("children", .arr [.obj [
      ("info", .obj [("tactic", .obj [("before", .arr [.obj [("pp", .str "g")]]), ("after", .arr [])])]),
      ("ref", .obj [("pp", .str "rfl"), ("range", .arr [.int 3, .int 5])]), ("children", .arr [])]])]

/-- Two theorems, the second of which stops at the given byte. -/
def twoProofs (stop : Nat) : Dump where
  declarations := some (.arr [rflDeclaration "a" 5, rflDeclaration "b" stop])
  trees := some (.arr [rflTree])
  lines := some (.arr [.int 0])

def rflRoot : Root := ⟨some ⟨⟨⟨1, 4⟩, ⟨1, 6⟩⟩, .str "rfl", .arr [.str "g"], .arr []⟩, some []⟩

def rflReading (name : String) (stop : Nat) : Reading where
  name := name
  range := ⟨⟨1, 1⟩, ⟨1, 11⟩⟩
  roots := [rflRoot]
  signature := .str "s"
  signatureRange := ⟨⟨1, 1⟩, ⟨1, 2⟩⟩
  proofRange := ⟨⟨1, 3⟩, ⟨1, stop + 1⟩⟩
  statement := .str ":= by rfl"
  operator := ":="

def rflProof (name : String) (stop : Nat) : Theorem :=
  (rflReading name stop).theoremWith (some rflRoot) [] (.arr [.str "g"]) (.arr [])

theorem extract_rflDeclaration {context : Context} (hlines : context.lines = .ofValues [.int 0])
    (hroots : context.roots = [rflRoot]) {name : String}
    (hname : name? context.module (.arr [.str name]) = .ok (some name)) (stop : Nat) :
    extractDeclaration context (rflDeclaration name stop) = .ok (some (rflProof name stop), "") := by
  have hreads : Reads context (rflDeclaration name stop) (rflReading name stop) := by
    refine ⟨hname, ?_, ?_, rfl, ?_, ?_, rfl, rfl, List.mem_cons_self⟩
    · rw [hlines]
      rfl
    · rw [hroots]
      rfl
    · rw [hlines]
      rfl
    · rw [hlines]
      rfl
  have hby : (rflReading name stop).byTactic = true :=
    (rfl : startsByTactic (afterOperator ":=" ":= by rfl".toList) = true)
  calc extractDeclaration context (rflDeclaration name stop)
      = extract context (rflDeclaration name stop) := rfl
    _ = (rflReading name stop).choose context (.arr [.str name]) :=
        extract_eq_choose ⟨_, rfl⟩ ⟨_, rfl⟩ ⟨_, rfl⟩ ⟨_, rfl⟩ hreads
    _ = .ok (some (rflProof name stop), "") := Reading.choose_ownRoot hby rfl rfl context _

theorem twoProofs_context (stop : Nat) :
    contextOf none "" (.arr [.str "M"]) (twoProofs stop).lineStarts (.arr [rflTree]) =
      .ok ⟨none, "", .arr [.str "M"], (twoProofs stop).lineStarts, [rflRoot], []⟩ := by
  cbv

theorem twoProofs_theorems (stop : Nat) :
    (ofModule none "" [("M", twoProofs stop)] (.arr [.str "M"])).fault = none ∧
      (ofModule none "" [("M", twoProofs stop)] (.arr [.str "M"])).theorems =
        [rflProof "a" 5, rflProof "b" stop] := by
  rw [ofModule_eq_extractAll rfl rfl rfl (twoProofs_context stop) rfl]
  generalize hcontext : Context.mk none "" (.arr [.str "M"]) (twoProofs stop).lineStarts [rflRoot] [] = context
  have hfirst : extractDeclaration context (rflDeclaration "a" 5) = .ok (some (rflProof "a" 5), "") :=
    extract_rflDeclaration (hcontext ▸ rfl) (hcontext ▸ rfl) (hcontext ▸ rfl) 5
  have hsecond : extractDeclaration context (rflDeclaration "b" stop) = .ok (some (rflProof "b" stop), "") :=
    extract_rflDeclaration (hcontext ▸ rfl) (hcontext ▸ rfl) (hcontext ▸ rfl) stop
  simp only [extractAll, hfirst, hsecond]
  exact ⟨trivial, rfl⟩

theorem rflProof_isPrintable (name : String) (stop : Nat) : (rflProof name stop).IsPrintable where
  operator := List.mem_cons_self
  signature := rfl
  before := .inr rfl
  after := .inr rfl
  roots := List.forall_mem_singleton.2 (.intro ⟨rfl, rfl, rfl⟩ (List.forall_mem_nil _))

theorem rflProof_isShort (name : String) (stop : Nat) :
    (rflProof name stop).isShort = true ↔ stop + 1 < 10 ^ Text.longestNumeral := by
  have hone : Value.isShort 1 = true := by decide
  have hthree : Value.isShort 3 = true := by decide
  have hroots : (rflProof name stop).allRoots.all Root.isShort = true := (by decide : [rflRoot].all Root.isShort = true)
  have hrange : (rflProof name stop).proofRange.isShort = Value.isShort (stop + 1) := by
    show (Value.isShort 1 && (Value.isShort 3 && (Value.isShort 1 && (Value.isShort (stop + 1) && true)))) = _
    rw [hone, hthree, Bool.and_true]
    rfl
  rw [isShort, hroots, hrange, Bool.and_true, Value.isShort, decide_eq_true_iff]
  exact Nat.length_toDigits_le_iff (by decide) (by decide)

theorem data_rflProof {stop : Nat} (hstop : stop + 1 < 10 ^ Text.longestNumeral) (name : String) :
    ∃ record, data "M" (rflProof name stop) = .ok record := by
  obtain ⟨record, hrecord, -⟩ := data_eq_ite (rflProof_isPrintable name stop) "M"
  exact ⟨record, by rw [hrecord, if_pos ((rflProof_isShort name stop).2 hstop)]⟩

theorem six_lt : 5 + 1 < 10 ^ Text.longestNumeral :=
  Nat.lt_of_lt_of_le (by decide : 5 + 1 < 10 ^ 1) (Nat.pow_le_pow_right (by decide) (by decide))

theorem exportModule_twoProofs (stop : Nat) (counts : Counts) :
    (exportModule none "" [("M", twoProofs stop)] counts (.arr [.str "M"])).lines =
        (exportAll "M" [] counts [rflProof "a" 5, rflProof "b" stop]).1 ∧
      (exportModule none "" [("M", twoProofs stop)] counts (.arr [.str "M"])).counts =
        (exportAll "M" [] counts [rflProof "a" 5, rflProof "b" stop]).2 := by
  obtain ⟨hfault, htheorems⟩ := twoProofs_theorems stop
  have hname : (Value.arr [.str "M"]).joinRaw "." = .ok "M" := rfl
  simp only [exportModule, hfault, htheorems, hname]
  exact ⟨trivial, trivial⟩

theorem add_rflProof (name : String) (stop : Nat) (n : Int) :
    Counts.add [(.str ":=", .int n)] (rflProof name stop).operator = .ok [(.str ":=", .int (n + 1))] := rfl

/-- Both proofs are exported and counted, whatever was counted before. -/
theorem exportModule_twoProofs_five (n : Int) :
    ∃ lines, lines.length = 2 ∧
      (exportModule none "" [("M", twoProofs 5)] [(.str ":=", .int n)] (.arr [.str "M"])).lines = .ok lines ∧
      (exportModule none "" [("M", twoProofs 5)] [(.str ":=", .int n)] (.arr [.str "M"])).counts =
        [(.str ":=", .int (n + 1 + 1))] := by
  obtain ⟨hlines, hcounts⟩ := exportModule_twoProofs 5 [(.str ":=", .int n)]
  obtain ⟨first, hfirst⟩ := data_rflProof six_lt "a"
  obtain ⟨second, hsecond⟩ := data_rflProof six_lt "b"
  refine ⟨[Json.line first, Json.line second], rfl, ?_⟩
  rw [hlines, hcounts]
  simp only [exportAll, hfirst, hsecond, add_rflProof]
  exact ⟨rfl, trivial⟩

/-- A session with a module of two proofs, something that is no module, and the same module again. -/
def repeatedSession : List Exported :=
  exportSession none "" [("M", twoProofs 5)] [(.str ":=", .int 1)] [.arr [.str "M"], .null, .arr [.str "M"]]

theorem repeatedSession_counts :
    (∀ entry ∈ [("M", twoProofs 5)], entry.2.IsTyped) ∧ Counts.AreIntegers [(.str ":=", .int 1)] ∧
      repeatedSession.map (fun call => call.lines.toOption.map List.length) = [some 2, none, some 2] ∧
      Counts.RisesBy [(.str ":=", .int 1)] (lineOperators (returnedLines repeatedSession))
        [(.str ":=", .int 5)] := by
  have htyped : ∀ entry ∈ [("M", twoProofs 5)], entry.2.IsTyped := by decide
  have hintegers : Counts.AreIntegers [(.str ":=", .int 1)] := List.forall_mem_singleton.2 rfl
  obtain ⟨lines, hlength, hlines, hcounts⟩ := exportModule_twoProofs_five 1
  obtain ⟨others, hothersLength, hothers, hothersCounts⟩ := exportModule_twoProofs_five 3
  have hnone (counts : Counts) : exportModule none "" [("M", twoProofs 5)] counts .null =
      ⟨.error (.notIterable Value.null.kind), counts, ""⟩ := rfl
  have hsession : repeatedSession =
      [exportModule none "" [("M", twoProofs 5)] [(.str ":=", .int 1)] (.arr [.str "M"]),
        ⟨.error (.notIterable Value.null.kind), [(.str ":=", .int 3)], ""⟩,
        exportModule none "" [("M", twoProofs 5)] [(.str ":=", .int 3)] (.arr [.str "M"])] := by
    simp only [repeatedSession, exportSession, hcounts, hnone]
    rfl
  have halone : countedAlone none "" [("M", twoProofs 5)] (.arr [.str "M"]) = [] := by
    have hshort (name : String) : (rflProof name 5).isShort = true := (rflProof_isShort name 5).2 six_lt
    simp [countedAlone, (twoProofs_theorems 5).2, hshort]
  have htable : tableAfter [(.str ":=", .int 1)] repeatedSession = [(.str ":=", .int 5)] := by
    rw [hsession]
    exact hothersCounts
  have hmatch := counts_match_lines none "" htyped hintegers [.arr [.str "M"], .null, .arr [.str "M"]]
  obtain ⟨-, -, hrises⟩ := hmatch
  have hnull : countedAlone none "" [("M", twoProofs 5)] .null = [] := rfl
  rw [← repeatedSession, htable] at hrises
  simp only [List.flatMap_cons, List.flatMap_nil, halone, hnull, List.append_nil] at hrises
  refine ⟨htyped, hintegers, ?_, hrises⟩
  rw [hsession]
  simp [hlines, hothers, hlength, hothersLength, Except.toOption]

/-- The second proof stops in a column with too many digits, and the first one was counted without its line. -/
theorem longColumn_counted_without_line :
    (exportModule none "" [("M", twoProofs (10 ^ Text.longestNumeral - 1))] [(.str ":=", .int 0)]
        (.arr [.str "M"])).lines = .error Value.tooManyDigits ∧
      (exportModule none "" [("M", twoProofs (10 ^ Text.longestNumeral - 1))] [(.str ":=", .int 0)]
        (.arr [.str "M"])).counts = [(.str ":=", .int 1)] := by
  obtain ⟨hlines, hcounts⟩ := exportModule_twoProofs (10 ^ Text.longestNumeral - 1) [(.str ":=", .int 0)]
  obtain ⟨first, hfirst⟩ := data_rflProof six_lt "a"
  obtain ⟨second, hsecond, -⟩ := data_eq_ite (rflProof_isPrintable "b" (10 ^ Text.longestNumeral - 1)) "M"
  have hlong : ¬ (rflProof "b" (10 ^ Text.longestNumeral - 1)).isShort = true := by
    rw [rflProof_isShort]
    omega
  rw [if_neg hlong] at hsecond
  rw [hlines, hcounts]
  simp only [exportAll, hfirst, hsecond, add_rflProof]
  exact ⟨trivial, rfl⟩

end Theorem

end ProofDump
