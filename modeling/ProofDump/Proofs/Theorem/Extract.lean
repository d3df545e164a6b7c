import ProofDump.Proofs.Except
import ProofDump.Proofs.Value
import ProofDump.Theorem.Extract

/-!
# What an extracted theorem was made of

An extracted theorem comes from a reading of its declaration: the name, the ranges, the roots within the
theorem and the text of its value with the operator at its start. `extract_eq_some` says in which of three
ways the rest is filled in, and `extractAll_pairs` that a walk over declarations without a fault extracts
theorems from some of the theorem declarations, in order. Nothing else in the theory opens the extraction.
-/

namespace ProofDump.Theorem

/-- A context holds what was collected from the info trees. -/
theorem contextOf_collects {files : Option FileTree} {root : String} {module : Value} {lines : LineStarts}
    {trees : Value} {context : Context} (hcontext : contextOf files root module lines trees = .ok context) :
    context.lines = lines ∧ ∃ forest, InfoTree.forest trees = .ok forest ∧
      InfoTree.roots .outerFirst lines forest = .ok context.roots ∧
      InfoTree.terms lines forest = (context.terms, none) := by
  unfold contextOf at hcontext
  obtain ⟨forest, hforest, hcontext⟩ := bind_eq_ok.1 hcontext
  obtain ⟨roots, hroots, hcontext⟩ := bind_eq_ok.1 hcontext
  split at hcontext
  · cases hcontext
  · rename_i terms hterms
    cases hcontext
    exact ⟨rfl, forest, hforest, hroots, hterms⟩

/-- What extraction reads of a declaration. -/
structure Reading where
  name : String
  range : FileRange
  roots : List Root
  signature : Value
  signatureRange : FileRange
  proofRange : FileRange
  statement : Value
  operator : String

namespace Reading

def rest (reading : Reading) : List Char :=
  afterOperator reading.operator (reading.statement.text?.getD "").toList

def byTactic (reading : Reading) : Bool := startsByTactic reading.rest

/-- The theorem of a reading, with the roots and the states that remain to be chosen. -/
def theoremWith (reading : Reading) (proofRoot : Option Root) (roots : List Root)
    (before after : Value) : Theorem where
  range := reading.range
  name := reading.name
  signature := reading.signature
  signatureRange := reading.signatureRange
  operator := reading.operator
  proof := String.ofList (proofText reading.operator reading.rest)
  proofRange := reading.proofRange
  proofType := if reading.byTactic then .tactic else .term
  proofRoot := proofRoot
  roots := roots
  before := before
  after := after

end Reading

/-- The parts of a reading are those of the declaration. -/
structure Reads (context : Context) (declaration : Value) (reading : Reading) : Prop where
  name : name? context.module (declaration.part "name") = .ok (some reading.name)
  range : FileRange.ofValue context.lines ((declaration.part "ref").part "range") = .ok reading.range
  roots : rootsWithin reading.range context.roots = .ok reading.roots
  signature : (declaration.part "signature").part "pp" = reading.signature
  signatureRange : FileRange.ofValue context.lines ((declaration.part "signature").part "range") =
    .ok reading.signatureRange
  proofRange : FileRange.ofValue context.lines ((declaration.part "value").part "range") =
    .ok reading.proofRange
  statement : statementText context ((declaration.part "value").part "pp") reading.proofRange =
    .ok reading.statement
  operator : word? reading.statement 0 = .ok (some reading.operator)
  isOperator : reading.operator ∈ operators

/-- How the roots and the states of a theorem are chosen: a tactic proof takes its first root and the
states of it, and otherwise the state is that of the term that stands for the theorem, without which only
a tactic proof is kept. -/
inductive Chosen (context : Context) (reading : Reading) : Theorem → Prop
  | ownRoot {own : Root} {step : Tactic} {others : List Root} (hby : reading.byTactic = true)
      (hroots : reading.roots = own :: others) (hstep : own.step = some step) :
      Chosen context reading (reading.theoremWith (some own) others step.before step.after)
  | standIn {term : Term}
      (hroots : reading.byTactic = true → ∀ own ∈ reading.roots.head?, own.step = none)
      (hterm : standIn? reading.range reading.name context.terms = some term) :
      Chosen context reading (reading.theoremWith none reading.roots term.type .null)
  | stateless (hby : reading.byTactic = true) (hroots : ∀ own ∈ reading.roots.head?, own.step = none)
      (hterm : standIn? reading.range reading.name context.terms = none) :
      Chosen context reading (reading.theoremWith none reading.roots .null .null)

/-- The theorem of a reading, unless it is dropped, and what is reported. -/
def Reading.choose (context : Context) (nameParts : Value) (reading : Reading) :
    Except Fault (Option Theorem × String) :=
  match reading.byTactic, reading.roots with
  | true, own@⟨some step, _⟩ :: others =>
    return (some (reading.theoremWith (some own) others step.before step.after), "")
  | _, _ =>
    match standIn? reading.range reading.name context.terms with
    | some term => return (some (reading.theoremWith none reading.roots term.type .null), "")
    | none => do
      if reading.byTactic then
        return (some (reading.theoremWith none reading.roots .null .null),
          notice context "xxxxx ERROR tactic_before is none on Tactic: " reading.name)
      else if (← nameParts.loadedIndex 0).same (.str "_private") then return (none, "")
      else return (none, notice context "xxxxx tactic_before is none, remove: " reading.name)

theorem exists_reads_of_extract {context : Context} {declaration : Value} {found : Theorem}
    {printed : String} (hextract : extract context declaration = .ok (some found, printed)) :
    ∃ reading, Reads context declaration reading ∧
      reading.choose context (declaration.part "name") = .ok (some found, printed) := by
  unfold extract at hextract
  replace ⟨_, hextract⟩ := Value.attr_bind_eq_ok.1 hextract
  replace ⟨name, hname, hextract⟩ := bind_eq_ok.1 hextract
  cases name with
  | none => cases hextract
  | some name =>
      simp only at hextract
      replace ⟨_, hextract⟩ := Value.attr_bind_eq_ok.1 hextract
      replace ⟨_, hextract⟩ := Value.attr_bind_eq_ok.1 hextract
      replace ⟨range, hrange, hextract⟩ := bind_eq_ok.1 hextract
      replace ⟨roots, hroots, hextract⟩ := bind_eq_ok.1 hextract
      replace ⟨_, hextract⟩ := Value.attr_bind_eq_ok.1 hextract
      replace ⟨_, hextract⟩ := Value.attr_bind_eq_ok.1 hextract
      replace ⟨_, hextract⟩ := Value.attr_bind_eq_ok.1 hextract
      replace ⟨signatureRange, hsignatureRange, hextract⟩ := bind_eq_ok.1 hextract
      replace ⟨_, hextract⟩ := Value.attr_bind_eq_ok.1 hextract
      replace ⟨_, hextract⟩ := Value.attr_bind_eq_ok.1 hextract
      replace ⟨_, hextract⟩ := Value.attr_bind_eq_ok.1 hextract
      replace ⟨proofRange, hproofRange, hextract⟩ := bind_eq_ok.1 hextract
      replace ⟨statement, hstatement, hextract⟩ := bind_eq_ok.1 hextract
      replace ⟨word, hword, hextract⟩ := bind_eq_ok.1 hextract
      cases word with
      | none => cases hextract
      | some operator =>
          by_cases hoperator : operators.contains operator = true
          · refine ⟨⟨name, range, roots, _, signatureRange, proofRange, statement, operator⟩,
              ⟨hname, hrange, hroots, rfl, hsignatureRange, hproofRange, hstatement, hword,
                List.contains_iff_mem.1 hoperator⟩, ?_⟩
            simp only [hoperator, Bool.not_true, Bool.false_eq_true, if_false] at hextract
            exact hextract
          · simp only [hoperator, Bool.not_false, if_true] at hextract
            cases hextract

/-- A declaration whose parts are records is extracted as its reading says. -/
theorem extract_eq_choose {context : Context} {declaration : Value} {reading : Reading}
    (hdeclaration : declaration.IsRecord) (href : (declaration.part "ref").IsRecord)
    (hsignature : (declaration.part "signature").IsRecord) (hvalue : (declaration.part "value").IsRecord)
    (hreads : Reads context declaration reading) :
    extract context declaration = reading.choose context (declaration.part "name") := by
  have hoperator := List.contains_iff_mem.2 hreads.isOperator
  simp only [extract, hdeclaration.attr, href.attr, hsignature.attr, hvalue.attr, ok_bind, hreads.name,
    hreads.range, hreads.roots, hreads.signature, hreads.signatureRange, hreads.proofRange, hreads.statement,
    hreads.operator, hoperator, Bool.not_true, Bool.false_eq_true, if_false]
  rfl

theorem Reading.choose_ownRoot {reading : Reading} {own : Root} {step : Tactic} {others : List Root}
    (hby : reading.byTactic = true) (hroots : reading.roots = own :: others) (hstep : own.step = some step)
    (context : Context) (nameParts : Value) :
    reading.choose context nameParts =
      .ok (some (reading.theoremWith (some own) others step.before step.after), "") := by
  rw [choose, hby, hroots]
  cases own
  cases hstep
  rfl

theorem chosen_of_choose {context : Context} {nameParts : Value} {reading : Reading}
    {found : Theorem} {printed : String}
    (hchoose : reading.choose context nameParts = .ok (some found, printed)) :
    Chosen context reading found := by
  unfold Reading.choose at hchoose
  split at hchoose
  · rename_i step children others hby hroots
    cases hchoose
    exact .ownRoot hby hroots rfl
  · rename_i hnot
    -- A tactic proof comes here only if its first root, where there is one, lacks its tactic.
    have hroots : reading.byTactic = true → ∀ own ∈ reading.roots.head?, own.step = none := by
      intro hby own hown
      obtain ⟨others, hothers⟩ := List.head?_eq_some_iff.1 hown
      cases hstep : own.step with
      | none => rfl
      | some step => exact (hnot step own.children others hby (by rw [hothers, ← hstep])).elim
    split at hchoose
    · rename_i term hterm
      cases hchoose
      exact .standIn hroots hterm
    · rename_i hterm
      split at hchoose
      · rename_i hby
        cases hchoose
        exact .stateless hby (hroots hby) hterm
      · obtain ⟨first, -, hdropped⟩ := bind_eq_ok.1 hchoose
        split at hdropped <;> cases hdropped

theorem extract_eq_some {context : Context} {declaration : Value} {found : Theorem} {printed : String}
    (hextract : extract context declaration = .ok (some found, printed)) :
    ∃ reading, Reads context declaration reading ∧ Chosen context reading found := by
  obtain ⟨reading, hreads, hchoose⟩ := exists_reads_of_extract hextract
  exact ⟨reading, hreads, chosen_of_choose hchoose⟩

/-! ### Walks over declarations -/

def isTheorem (declaration : Value) : Bool := (declaration.part "kind").same (.str "theorem")

theorem extractDeclaration_eq_some {context : Context} {declaration : Value} {found : Theorem}
    {printed : String}
    (hextract : extractDeclaration context declaration = .ok (some found, printed)) :
    isTheorem declaration = true ∧ extract context declaration = .ok (some found, printed) := by
  unfold extractDeclaration at hextract
  obtain ⟨kind, hkind, hextract⟩ := bind_eq_ok.1 hextract
  obtain ⟨-, rfl⟩ := Value.attr_eq_ok_iff.1 hkind
  by_cases htheorem : (declaration.part "kind").same (.str "theorem") = true
  · simp only [htheorem, Bool.not_true, Bool.false_eq_true, if_false] at hextract
    obtain ⟨nameParts, -, hextract⟩ := bind_eq_ok.1 hextract
    obtain ⟨length, -, hextract⟩ := bind_eq_ok.1 hextract
    by_cases hlength : length = 0
    · rw [if_pos hlength] at hextract
      cases hextract
    · rw [if_neg hlength] at hextract
      exact ⟨htheorem, hextract⟩
  · simp only [htheorem, Bool.not_false, if_true] at hextract
    cases hextract

/-- A walk over declarations without a fault extracts theorems from some of the theorem declarations, in
their order. -/
theorem extractAll_pairs {context : Context} {declarations : List Value} {harvest : Harvest}
    (hfault : (extractAll context harvest declarations).fault = none) :
    ∃ pairs : List (Value × Theorem),
      (pairs.map Prod.fst).Sublist (declarations.filter isTheorem) ∧
      (extractAll context harvest declarations).theorems = harvest.theorems ++ pairs.map Prod.snd ∧
      ∀ pair ∈ pairs, ∃ printed, extract context pair.1 = .ok (some pair.2, printed) := by
  induction declarations generalizing harvest with
  | nil => exact ⟨[], List.Sublist.refl _, by simp [extractAll], by simp⟩
  | cons declaration rest ih =>
      rw [extractAll] at hfault ⊢
      cases hone : extractDeclaration context declaration with
      | error fault =>
          rw [hone] at hfault
          cases hfault
      | ok result =>
          obtain ⟨found, printed⟩ := result
          simp only [hone] at hfault ⊢
          obtain ⟨pairs, hsublist, htheorems, hpairs⟩ := ih hfault
          cases found with
          | none =>
              refine ⟨pairs, ?_, by simpa using htheorems, hpairs⟩
              exact hsublist.trans ((List.sublist_cons_self declaration rest).filter isTheorem)
          | some found =>
              obtain ⟨htheorem, hextract⟩ := extractDeclaration_eq_some hone
              refine ⟨(declaration, found) :: pairs, ?_, by simpa using htheorems, ?_⟩
              · rw [List.map_cons, List.filter_cons_of_pos htheorem]
                exact hsublist.cons_cons declaration
              · intro pair hpair
                rcases List.mem_cons.1 hpair with rfl | hpair
                · exact ⟨printed, hextract⟩
                · exact hpairs pair hpair

end ProofDump.Theorem
