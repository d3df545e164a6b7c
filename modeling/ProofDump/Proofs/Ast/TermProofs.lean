import Mathlib
import ProofDump.Proofs.Ast.Ranges

/-!
# Records of term proofs

The proof of a declaration is looked for at the first word that starts one and stands free. Such a word has a
boundary of words at both ends, and a sign of assignment between blanks has none. So of a signature, a sign of
assignment and a body only the body counts (`proof?_of_assignment`): a term is recorded as it stands exactly if
nothing but what cleaning takes away comes before the first free word in it.
-/

namespace ProofDump.Ast

/-! ### Free words -/

/-- Between the texts a word that starts a proof stands free. -/
def StartsAt (before after : List Char) : Prop :=
  ∃ word ∈ proofStarts, ∃ rest, after = word.toList ++ rest ∧
    Text.isBoundary before.getLast? after.head? = true ∧ Text.isBoundary word.toList.getLast? rest.head? = true

/-- The first free word that starts a proof comes after what is skipped. -/
structure FirstStart (text skipped rest : List Char) : Prop where
  parts : text = skipped ++ rest
  starts : StartsAt skipped rest
  first : ∀ earlier later, skipped = earlier ++ later → later ≠ [] → ¬ StartsAt earlier (later ++ rest)

theorem any_standsFree_iff {before text : List Char} :
    (proofStarts.any fun word => standsFree before.getLast? text word.toList) = true ↔ StartsAt before text := by
  rw [List.any_eq_true, StartsAt]
  refine exists_congr fun word => and_congr_right fun _ => ?_
  rw [standsFree, Bool.and_eq_true]
  constructor
  · rintro ⟨hbefore, hword⟩
    split at hword
    · rename_i rest hrest
      exact ⟨rest, Text.dropPrefix?_eq_some_iff.1 hrest, hbefore, hword⟩
    · cases hword
  · rintro ⟨rest, htext, hbefore, hafter⟩
    rw [Text.dropPrefix?_eq_some_iff.2 htext]
    exact ⟨hbefore, hafter⟩

theorem proofFrom?_of_startsAt {before text : List Char} (hstarts : StartsAt before text) :
    proofFrom? before.getLast? text = some text := by
  cases text with
  | nil =>
      obtain ⟨word, hword, rest, hrest, -⟩ := hstarts
      have hall : (proofStarts.all fun word => word ≠ "") = true := rfl
      have hne := List.all_eq_true.1 hall word hword
      rw [List.nil_eq_append_iff] at hrest
      simp_all
  | cons c text => rw [proofFrom?, if_pos (any_standsFree_iff.2 hstarts)]

/-- Where no proof starts nothing is found. -/
theorem proofFrom?_append (before : List Char) {skipped rest : List Char}
    (hskipped : ∀ earlier later, skipped = earlier ++ later → later ≠ [] →
      ¬ StartsAt (before ++ earlier) (later ++ rest)) :
    proofFrom? before.getLast? (skipped ++ rest) = proofFrom? (before ++ skipped).getLast? rest := by
  induction skipped generalizing before with
  | nil => rw [List.nil_append, List.append_nil]
  | cons c skipped ih =>
      have hhere : ¬ StartsAt before (c :: (skipped ++ rest)) := by
        simpa using hskipped [] (c :: skipped) rfl (List.cons_ne_nil _ _)
      have hlast : (before ++ [c]).getLast? = some c := List.getLast?_concat
      have hlater := ih (before ++ [c]) fun earlier later hparts hne => by
        rw [List.append_assoc]
        exact hskipped (c :: earlier) later (by rw [hparts]; rfl) hne
      rw [List.cons_append, proofFrom?, if_neg (any_standsFree_iff.not.2 hhere), ← hlast, hlater,
        List.append_assoc, List.singleton_append]

theorem proofFrom?_eq_some (before : List Char) {text rest : List Char}
    (hrest : proofFrom? before.getLast? text = some rest) :
    ∃ skipped, text = skipped ++ rest ∧ StartsAt (before ++ skipped) rest ∧
      ∀ earlier later, skipped = earlier ++ later → later ≠ [] → ¬ StartsAt (before ++ earlier) (later ++ rest) := by
  induction text generalizing before with
  | nil => cases hrest
  | cons c text ih =>
      rw [proofFrom?] at hrest
      split at hrest
      · rename_i hfree
        cases hrest
        refine ⟨[], rfl, by rw [List.append_nil]; exact any_standsFree_iff.1 hfree, ?_⟩
        intro earlier later hparts hne
        exact absurd (List.append_eq_nil_iff.1 hparts.symm).2 hne
      · rename_i hfree
        have hlast : (before ++ [c]).getLast? = some c := List.getLast?_concat
        rw [← hlast] at hrest
        obtain ⟨skipped, rfl, hstarts, hfirst⟩ := ih (before ++ [c]) hrest
        rw [List.append_assoc, List.singleton_append] at hstarts
        refine ⟨c :: skipped, rfl, hstarts, fun earlier later hparts hne => ?_⟩
        cases earlier with
        | nil =>
            rw [List.append_nil, ← hparts.trans (List.nil_append _)]
            exact any_standsFree_iff.not.1 hfree
        | cons d earlier =>
            obtain ⟨rfl, hlater⟩ := List.cons.inj hparts
            have hnot := hfirst earlier later hlater hne
            rwa [List.append_assoc, List.singleton_append] at hnot

theorem proofFrom?_eq_some_iff {text rest : List Char} :
    proofFrom? none text = some rest ↔ ∃ skipped, FirstStart text skipped rest := by
  constructor
  · intro hrest
    obtain ⟨skipped, hparts, hstarts, hfirst⟩ := proofFrom?_eq_some [] hrest
    exact ⟨skipped, hparts, hstarts, hfirst⟩
  · rintro ⟨skipped, rfl, hstarts, hfirst⟩
    exact (proofFrom?_append [] hfirst).trans (proofFrom?_of_startsAt hstarts)

theorem proof?_eq_some_iff {text proof : List Char} :
    proof? text = some proof ↔ proof ≠ [] ∧ ∃ skipped rest, FirstStart text skipped rest ∧ clean rest = proof := by
  constructor
  · intro hproof
    rw [proof?] at hproof
    split at hproof
    · cases hproof
    · rename_i rest hrest
      obtain ⟨skipped, hskipped⟩ := proofFrom?_eq_some_iff.1 hrest
      split at hproof
      · cases hproof
      · rename_i hne
        cases hproof
        exact ⟨by simpa using hne, skipped, rest, hskipped, rfl⟩
  · rintro ⟨hne, skipped, rest, hskipped, rfl⟩
    simp only [proof?, proofFrom?_eq_some_iff.2 ⟨skipped, hskipped⟩]
    rw [if_neg (by simpa using hne)]

theorem proof?_eq_none_iff {text : List Char} :
    proof? text = none ↔ ∀ skipped rest, FirstStart text skipped rest → clean rest = [] := by
  rw [Option.eq_none_iff_forall_ne_some]
  constructor
  · intro hnone skipped rest hskipped
    by_contra hne
    exact hnone _ (proof?_eq_some_iff.2 ⟨hne, skipped, rest, hskipped, rfl⟩)
  · intro hempty proof hproof
    obtain ⟨hne, skipped, rest, hskipped, rfl⟩ := proof?_eq_some_iff.1 hproof
    exact hne (hempty skipped rest hskipped)

/-! ### Assignments -/

/-- No sign of assignment is in the text, and the other words that start a proof are at most parts of words. -/
structure IsSignature (text : List Char) : Prop where
  unassigned : ¬ ":=".toList <:+: text
  wordless : ∀ word ∈ ["by", "where"], ∀ front back, text = front ++ word.toList ++ back →
    front.getLast?.any Text.isWordChar = true ∨ back.head?.any Text.isWordChar = true

theorem isWordChar_ends {word : String} (hword : word ∈ ["by", "where"]) :
    word.toList.head?.any Text.isWordChar = true ∧ word.toList.getLast?.any Text.isWordChar = true := by
  have hall : (["by", "where"].all fun word =>
    word.toList.head?.any Text.isWordChar && word.toList.getLast?.any Text.isWordChar) = true := by decide +kernel
  rw [← Bool.and_eq_true]
  exact List.all_eq_true.1 hall word hword

theorem IsSignature.not_startsAt {signature : List Char} (hsignature : IsSignature signature)
    {earlier later : List Char} (hparts : signature = earlier ++ later) (hne : later ≠ []) (rest : List Char) :
    ¬ StartsAt earlier (later ++ ' ' :: rest) := by
  rintro ⟨word, hword, after, hafter, hbefore, hbehind⟩
  -- The word has no blank in it, so it ends before the blank.
  obtain ⟨back, rfl, rfl⟩ : ∃ back, later = word.toList ++ back ∧ after = back ++ ' ' :: rest := by
    rcases List.append_eq_append_iff.1 hafter with ⟨lost, hlost, hrest⟩ | ⟨back, hback, hrest⟩
    · cases lost with
      | nil => exact ⟨[], by simpa using hlost.symm, by simpa using hrest.symm⟩
      | cons c lost =>
          obtain ⟨rfl, -⟩ := List.cons.inj hrest
          have hall : (proofStarts.all fun word => !word.toList.contains ' ') = true := rfl
          have hfree := List.all_eq_true.1 hall word hword
          simp [hlost] at hfree
    · exact ⟨back, hback, hrest⟩
  have hwhole : signature = earlier ++ word.toList ++ back := by rw [hparts, List.append_assoc]
  by_cases hassigns : word = ":="
  · exact hsignature.unassigned ⟨earlier, back, by rw [hwhole, hassigns]⟩
  · have hword : word ∈ ["by", "where"] := by simpa [proofStarts, hassigns] using hword
    obtain ⟨hfirst, hlast⟩ := isWordChar_ends hword
    rw [List.append_assoc, List.head?_append, Text.isBoundary] at hbefore
    rw [Text.isBoundary, hlast] at hbehind
    rcases hsignature.wordless word hword earlier back hwhole with hfront | hback
    · cases hhead : word.toList.head? with
      | none => simp [hhead] at hfirst
      | some c => simp_all
    · cases back with
      | nil => cases hback
      | cons c back => simp_all

theorem proofFrom?_congr {previous other : Option Char}
    (hsame : previous.any Text.isWordChar = other.any Text.isWordChar) (text : List Char) :
    proofFrom? previous text = proofFrom? other text := by
  cases text with
  | nil => rfl
  | cons c text =>
      have hfree (word : List Char) : standsFree previous (c :: text) word = standsFree other (c :: text) word := by
        simp only [standsFree, Text.isBoundary, hsame]
      simp only [proofFrom?, hfree]

/-- Of a signature, a sign of assignment between blanks and a body, only the body has a proof. -/
theorem proof?_of_assignment {signature : List Char} (hsignature : IsSignature signature) (body : List Char) :
    proof? (signature ++ " := ".toList ++ body) = proof? body := by
  have hsign : proofFrom? signature.getLast? (" := ".toList ++ body) = proofFrom? none body := by
    have hblank : Text.isWordChar ' ' = false := by decide +kernel
    have hcolon : Text.isWordChar ':' = false := by decide +kernel
    have hbody : proofFrom? (some ' ') body = proofFrom? none body := proofFrom?_congr (by simp [hblank]) body
    simp [← hbody, proofFrom?, proofStarts, standsFree, Text.dropPrefix?, Text.isBoundary, hblank, hcolon]
  have hfrom : proofFrom? none (signature ++ " := ".toList ++ body) = proofFrom? none body := by
    rw [List.append_assoc]
    exact (proofFrom?_append [] fun earlier later hparts hne => hsignature.not_startsAt hparts hne _).trans hsign
  rw [proof?, hfrom, ← proof?]

theorem clean_assignment (body : List Char) : clean (":= ".toList ++ body) = clean body := rfl

/-! ### Named declarations -/

/-- The node declares something, in a range, and its name is found. -/
structure IsNamed (visit : Visit) (range : Int × Int) (name : String) : Prop where
  declared : declares visit.fields = true
  ranged : range? visit.whole = .ok (some range)
  named : nameOf (.obj visit.fields) = .ok name
  known : name ≠ unknown

namespace Scan

variable {module : String} {source : Content} {scan : Scan} {visit : Visit} {range : Int × Int} {name : String}

/-- What is written for a named declaration: its proof, unless it has the name of the innermost namespace. -/
theorem exists_record (module : String) (source : Content) (hnamed : IsNamed visit range name)
    (hunseen : range ∉ scan.seen) :
    ∃ next, scan.record module source visit = .ok next ∧ next.written = scan.written ++
      (if scan.namespaces.getLast? = some name then none
        else proof? (source.stretch range.1 range.2)).elim "" fun proof =>
          Records.recordLine (.str module, .str (fullName scan.namespaces name)) (.str (String.ofList proof)) := by
  have hnew : scan.seen.contains range = false := by simpa using hunseen
  rw [record, hnamed.declared, hnamed.ranged]
  show ∃ next, (if scan.seen.contains range = true then _ else _) = _ ∧ _
  rw [hnew, hnamed.named]
  show ∃ next, (if name = unknown ∨ scan.namespaces.getLast? = some name then _ else _) = _ ∧ _
  by_cases hinner : scan.namespaces.getLast? = some name
  · rw [if_pos (.inr hinner), if_pos hinner]
    exact ⟨scan, rfl, by simp⟩
  · rw [if_neg (not_or.2 ⟨hnamed.known, hinner⟩), if_neg hinner]
    cases proof? (source.stretch range.1 range.2) with
    | none => exact ⟨_, rfl, by simp⟩
    | some proof => exact ⟨_, rfl, rfl⟩

theorem exists_step (module : String) (source : Content) (hnamed : IsNamed visit range name)
    (hunseen : range ∉ scan.seen) :
    ∃ next, scan.step module source visit = (next, none) ∧ next.written = scan.written ++
      (if (visit.restack scan.namespaces).getLast? = some name then none
        else proof? (source.stretch range.1 range.2)).elim "" fun proof =>
          Records.recordLine (.str module, .str (fullName (visit.restack scan.namespaces) name))
            (.str (String.ofList proof)) := by
  obtain ⟨entered, henter⟩ : ∃ entered, scan.enter visit = .ok entered := by
    cases hopens : visit.opens with
    | false => exact ⟨scan, enter_of_not_opens hopens⟩
    | true => exact (enter_of_opens hopens hnamed.named).imp fun entered henter => henter.1
  obtain ⟨hnamespaces, hseen, hwritten⟩ := enter_eq_ok henter
  obtain ⟨hleft, hleftSeen, hleftWritten⟩ := leave_eq entered visit
  rw [hnamespaces, ← Visit.restack] at hleft
  have hnew : range ∉ (entered.leave visit).seen := by rwa [hleftSeen, hseen]
  obtain ⟨next, hrecord, hnext⟩ := exists_record module source hnamed hnew
  rw [hleft, hleftWritten, hwritten] at hnext
  refine ⟨next, ?_, hnext⟩
  rw [step, henter]
  simp only [hrecord]

theorem written_step_prefix (module : String) (source : Content) (scan : Scan) (visit : Visit) :
    scan.written.toList <+: (scan.step module source visit).1.written.toList := by
  rw [step]
  cases henter : scan.enter visit with
  | error fault => exact List.prefix_rfl
  | ok entered =>
      have hleft : (entered.leave visit).written = scan.written :=
        (leave_eq entered visit).2.2.trans (enter_eq_ok henter).2.2
      rw [← hleft]
      cases hrecord : (entered.leave visit).record module source visit with
      | error fault => simp only [hrecord, List.prefix_rfl]
      | ok next =>
          simp only [hrecord]
          rcases (record_cases hrecord).2 with hsame | ⟨name, proof, -, -, hline⟩
          · rw [hsame]
          · rw [hline, String.toList_append]
            exact List.prefix_append _ _

theorem written_prefix (module : String) (source : Content) (scan : Scan) (visits : List Visit) :
    scan.written.toList <+: (scan.run module source visits).1.written.toList := by
  induction visits generalizing scan with
  | nil => exact List.prefix_rfl
  | cons visit visits ih =>
      have hstep := written_step_prefix module source scan visit
      rw [run]
      cases hnext : scan.step module source visit with
      | mk next fault =>
          rw [hnext] at hstep
          cases fault with
          | some fault => exact hstep
          | none => exact hstep.trans (ih next)

end Scan

/-! ### Processed files -/

/-- For a named declaration of a range not seen before, whose source is a signature, a sign of assignment and a
body, its proof in a record is the cleaned body exactly if it has not the name of the innermost namespace and the
first free word that starts a proof in the body comes after nothing that cleaning would leave. There is no record
exactly if it has that name or cleaning leaves nothing from such a word on. -/
theorem term_proof_recorded_iff {tree : FileTree} {toolchain root file ast : Value}
    {path module : String} {content source : Content}
    (hfile : treeFile tree root file = .ok (path, module, content))
    (hread : syntaxTree content = .ok ast)
    (hsource : source? tree toolchain root path = .ok (some source))
    {before later : List Visit} {visit : Visit} (hnodes : visits ast = before ++ visit :: later)
    {scan : Scan} (hrun : Scan.run module source {} before = (scan, none))
    {range : Int × Int} {name : String} (hnamed : IsNamed visit range name) (hunseen : range ∉ scan.seen)
    {signature body : List Char}
    (hslice : source.stretch range.1 range.2 = signature ++ " := ".toList ++ body)
    (hsignature : IsSignature signature) (hbody : clean body ≠ []) :
    ∃ recorded : Option (List Char), ∃ next final fault,
      scan.step module source visit = (next, none) ∧
      next.written = scan.written ++ recorded.elim "" (fun proof => Records.recordLine
        (.str module, .str (fullName (stackAfter (before ++ [visit])) name)) (.str (String.ofList proof))) ∧
      process tree toolchain root file = .scanned final fault ∧ next.written.toList <+: final.written.toList ∧
      (recorded = some (clean (":= ".toList ++ body)) ↔
        (stackAfter (before ++ [visit])).getLast? ≠ some name ∧
          ∃ skipped rest, FirstStart body skipped rest ∧ clean rest = clean body) ∧
      (recorded = none ↔ (stackAfter (before ++ [visit])).getLast? = some name ∨
        ∀ skipped rest, FirstStart body skipped rest → clean rest = []) := by
  obtain ⟨findings, htracked⟩ := Tracked.start.run hrun
  rw [List.nil_append] at htracked
  obtain ⟨next, hstep, hwritten⟩ := Scan.exists_step module source hnamed hunseen
  rw [htracked.stack, ← stackAfter_concat, hslice, proof?_of_assignment hsignature] at hwritten
  refine ⟨_, next, _, _, hstep, hwritten, process_of_source hfile hread hsource, ?_, ?_, ?_⟩
  · rw [hnodes, Scan.run_append, hrun]
    simp only [Scan.run, hstep]
    exact Scan.written_prefix module source next later
  · rw [clean_assignment]
    by_cases hinner : (stackAfter (before ++ [visit])).getLast? = some name
    · simp [hinner]
    · rw [if_neg hinner, proof?_eq_some_iff, and_iff_right hbody, and_iff_right hinner]
  · by_cases hinner : (stackAfter (before ++ [visit])).getLast? = some name
    · simp [hinner]
    · rw [if_neg hinner, proof?_eq_none_iff, or_iff_right hinner]

/-! ### A proof by tactics and a term -/

def assignedText : String :=
  "[\x7b\"kind\":\"def\",\"rawVal\":\"x\",\"pos\":0,\"endPos\":9\x7d," ++
    "\x7b\"kind\":\"def\",\"rawVal\":\"y\",\"pos\":10,\"endPos\":16\x7d]"

def assignedSource : String := "d := by a\ne := b"

def assignedProject : FileTree where
  here := []
  files := [(["p", ".jixia", "M.ast.json"], assignedText), (["p", "M.lean"], assignedSource)]
  directories := []

def assignedNodes : Value := .arr [definitionNode "x" 0 9, definitionNode "y" 10 16]

theorem treeFile_assignedProject :
    treeFile assignedProject (.str "p") (.str "M.ast.json") = .ok ("p/.jixia/M.ast.json", "M", assignedText) := rfl

set_option maxRecDepth 4000 in
theorem read_assignedText : syntaxTree assignedText = .ok assignedNodes := by
  rw [syntaxTree_ofText]
  cbv

theorem source?_assignedProject :
    source? assignedProject (.str "t") (.str "p") "p/.jixia/M.ast.json" = .ok (some assignedSource) := rfl

def visitOf (name : String) (start stop : Int) : Visit where
  whole := definitionNode name start stop
  fields := [("kind", .str "def"), ("rawVal", .str name), ("pos", .int start), ("endPos", .int stop)]

theorem visits_assignedNodes : visits assignedNodes = [visitOf "x" 0 9, visitOf "y" 10 16] := rfl

theorem isNamed_visitOf_x : IsNamed (visitOf "x" 0 9) (0, 9) "x" := ⟨by decide, rfl, rfl, by decide⟩

theorem isNamed_visitOf_y : IsNamed (visitOf "y" 10 16) (10, 16) "y" := ⟨by decide, rfl, rfl, by decide⟩

theorem isSignature_singleton {c : Char} : IsSignature [c] where
  unassigned := fun hsign => by simpa using hsign.length_le
  wordless := by
    intro word hword front back hparts
    have hlength := congrArg List.length hparts
    have hlong : 2 ≤ word.toList.length := by
      simp only [List.mem_cons, List.not_mem_nil, or_false] at hword
      rcases hword with rfl | rfl <;> decide
    simp only [List.length_append, List.length_singleton] at hlength
    omega

theorem stretch_assignedSource :
    Content.stretch assignedSource 0 9 = ['d'] ++ " := ".toList ++ "by a".toList ∧
      Content.stretch assignedSource 10 16 = ['e'] ++ " := ".toList ++ ['b'] :=
  ⟨Content.stretch_ofText _ _ _, Content.stretch_ofText _ _ _⟩

theorem clean_tactics : clean "by a".toList = "by a".toList := by cbv

theorem term_proof_recorded_by : ∃ next final : Scan, ∃ fault,
    Scan.step "M" assignedSource {} (visitOf "x" 0 9) = (next, none) ∧
      next.written = Records.recordLine (.str "M", .str "x") (.str "by a") ∧
      process assignedProject (.str "t") (.str "p") (.str "M.ast.json") = .scanned final fault ∧
      next.written.toList <+: final.written.toList := by
  have hstarts : StartsAt [] "by a".toList :=
    ⟨"by", by decide, " a".toList, rfl, by decide +kernel, by decide +kernel⟩
  have hstart : FirstStart "by a".toList [] "by a".toList :=
    ⟨rfl, hstarts, fun earlier later hparts hne => absurd (List.append_eq_nil_iff.1 hparts.symm).2 hne⟩
  obtain ⟨recorded, next, final, fault, hstep, hwritten, hprocess, hbegins, hrecorded, -⟩ :=
    term_proof_recorded_iff treeFile_assignedProject read_assignedText source?_assignedProject
      (show visits assignedNodes = [] ++ visitOf "x" 0 9 :: [visitOf "y" 10 16] from visits_assignedNodes) rfl
      isNamed_visitOf_x (by simp) stretch_assignedSource.1 isSignature_singleton
      (by rw [clean_tactics]; decide)
  refine ⟨next, final, fault, hstep, ?_, hprocess, hbegins⟩
  rw [hwritten, hrecorded.2 ⟨by decide, [], _, hstart, rfl⟩, clean_assignment, clean_tactics]
  rfl

def tacticScan : Scan where
  seen := [(0, 9)]
  written := Records.recordLine (.str "M", .str "x") (.str "by a")

theorem step_visitOf_x : Scan.step "M" assignedSource {} (visitOf "x" 0 9) = (tacticScan, none) := by
  have hproof : proof? (Content.stretch assignedSource 0 9) = some "by a".toList := by
    rw [stretch_assignedSource.1, proof?_of_assignment isSignature_singleton, proof?_sectionSource]
  have hfull : fullName [] "x" = "x" := rfl
  have hrecord : Scan.record "M" assignedSource {} (visitOf "x" 0 9) = .ok tacticScan := by
    rw [Scan.record_eq_ok "M" _ _ _ isNamed_visitOf_x.declared isNamed_visitOf_x.ranged rfl isNamed_visitOf_x.named
      (by decide) hproof, hfull, String.ofList_toList, String.empty_append]
    rfl
  rw [Scan.step, Scan.enter_of_not_opens (by decide)]
  simp only [Scan.leave_of_not_closes (show (visitOf "x" 0 9).closes = false by decide), hrecord]

/-- A term after a sign of assignment: there is no record of it. -/
theorem term_proof_left_out :
    visits assignedNodes = [visitOf "x" 0 9, visitOf "y" 10 16] ∧ IsNamed (visitOf "y" 10 16) (10, 16) "y" ∧
      Content.stretch assignedSource 10 16 = ['e'] ++ " := ".toList ++ ['b'] ∧ IsSignature ['e'] ∧
      clean ['b'] = ['b'] ∧
      ∃ final, process assignedProject (.str "t") (.str "p") (.str "M.ast.json") = .scanned final none ∧
        final.written = Records.recordLine (.str "M", .str "x") (.str "by a") := by
  have hclean : clean ['b'] = ['b'] := by cbv
  refine ⟨visits_assignedNodes, isNamed_visitOf_y, stretch_assignedSource.2, isSignature_singleton, hclean, ?_⟩
  have hproof : proof? (Content.stretch assignedSource 10 16) = none := by
    have hfrom : proofFrom? none ['b'] = none := by decide +kernel
    rw [stretch_assignedSource.2, proof?_of_assignment isSignature_singleton, proof?, hfrom]
  obtain ⟨final, hstep, hwritten⟩ := Scan.exists_step "M" assignedSource isNamed_visitOf_y
    (show (10, 16) ∉ tacticScan.seen by decide)
  refine ⟨final, ?_, ?_⟩
  · rw [process_of_source treeFile_assignedProject read_assignedText source?_assignedProject, visits_assignedNodes]
    simp only [Scan.run, step_visitOf_x, hstep]
  · rw [hwritten, hproof, ite_self]
    rfl

end ProofDump.Ast
