import Mathlib
import ProofDump.Proofs.Ast.Records

/-!
# One record for a range

Nodes of a syntax tree that lie within each other often have one source range, and a scan records at most one
of them. The stack of namespaces at a node is told from the nodes up to it (`stackAfter`), so it can be said
without the scan which nodes are to be recorded: those that are the first targets of their ranges, if the source
there has a proof. A step of the scan adds the next of them (`Tracked.step`), and a whole scan writes them all.
-/

namespace ProofDump.Ast

/-! ### The stack of namespaces -/

namespace Visit

/-- The stack after a node. -/
def restack (stack : List String) (visit : Visit) : List String :=
  if visit.closes then (stack ++ visit.pushed).dropLast else stack ++ visit.pushed

end Visit

/-- The stack of namespaces after some nodes. -/
def stackAfter (visits : List Visit) : List String := visits.foldl Visit.restack []

theorem stackAfter_concat (visits : List Visit) (visit : Visit) :
    stackAfter (visits ++ [visit]) = visit.restack (stackAfter visits) := by
  rw [stackAfter, List.foldl_append]
  rfl

/-! ### Targets -/

/-- One of the nodes is a target of the range. -/
def HasTarget (visits : List Visit) (range : Int × Int) : Prop :=
  ∃ before visit name, before ++ [visit] <+: visits ∧ IsTarget (stackAfter (before ++ [visit])) visit range name

theorem hasTarget_concat_iff {visits : List Visit} {visit : Visit} {range : Int × Int} :
    HasTarget (visits ++ [visit]) range ↔
      HasTarget visits range ∨ ∃ name, IsTarget (stackAfter (visits ++ [visit])) visit range name := by
  constructor
  · rintro ⟨before, other, name, hplace, htarget⟩
    rcases List.prefix_concat_iff.1 hplace with hlast | hplace
    · obtain ⟨rfl, hvisit⟩ := List.append_inj' hlast rfl
      obtain rfl := List.singleton_inj.1 hvisit
      exact .inr ⟨name, htarget⟩
    · exact .inl ⟨before, other, name, hplace, htarget⟩
  · rintro (⟨before, other, name, hplace, htarget⟩ | ⟨name, htarget⟩)
    · exact ⟨before, other, name, hplace.trans (List.prefix_append _ _), htarget⟩
    · exact ⟨visits, visit, name, List.prefix_rfl, htarget⟩

/-- A recorded node: the nodes before it, the node itself with its range and its name, and the proof. -/
structure Finding where
  before : List Visit
  visit : Visit
  range : Int × Int
  name : String
  proof : List Char

namespace Finding

/-- The stack of namespaces at the node. -/
def stack (finding : Finding) : List String := stackAfter (finding.before ++ [finding.visit])

def line (module : String) (finding : Finding) : String :=
  Records.recordLine (.str module, .str (fullName finding.stack finding.name)) (.str (String.ofList finding.proof))

/-- The node is the first target of its range among some nodes. -/
structure IsFirst (visits : List Visit) (finding : Finding) : Prop where
  place : finding.before ++ [finding.visit] <+: visits
  target : IsTarget finding.stack finding.visit finding.range finding.name
  first : ¬ HasTarget finding.before finding.range

/-- The proof is that of the source at the range of the node. -/
def HasProof (source : Content) (finding : Finding) : Prop :=
  proof? (source.stretch finding.range.1 finding.range.2) = some finding.proof

variable {visits : List Visit} {visit : Visit} {finding other : Finding}

theorem isFirst_concat_iff :
    finding.IsFirst (visits ++ [visit]) ↔ finding.IsFirst visits ∨
      (finding.before = visits ∧ finding.visit = visit) ∧
        IsTarget finding.stack finding.visit finding.range finding.name ∧ ¬ HasTarget visits finding.range := by
  constructor
  · rintro ⟨hplace, htarget, hfirst⟩
    rcases List.prefix_concat_iff.1 hplace with hlast | hplace
    · obtain ⟨hbefore, hvisit⟩ := List.append_inj' hlast rfl
      exact .inr ⟨⟨hbefore, List.singleton_inj.1 hvisit⟩, htarget, hbefore ▸ hfirst⟩
    · exact .inl ⟨hplace, htarget, hfirst⟩
  · rintro (⟨hplace, htarget, hfirst⟩ | ⟨⟨rfl, rfl⟩, htarget, hfirst⟩)
    · exact ⟨hplace.trans (List.prefix_append _ _), htarget, hfirst⟩
    · exact ⟨List.prefix_rfl, htarget, hfirst⟩

theorem IsFirst.length_lt (hfinding : finding.IsFirst visits) : finding.before.length < visits.length := by
  have hlength := hfinding.place.length_le
  rw [List.length_append, List.length_singleton] at hlength
  omega

/-- Of two first targets the later one has another range. -/
theorem IsFirst.range_ne (hfinding : finding.IsFirst visits) (hother : other.IsFirst visits)
    (hbefore : finding.before.length < other.before.length) : finding.range ≠ other.range := by
  intro hrange
  apply hother.first
  have hplace : finding.before ++ [finding.visit] <+: other.before := by
    apply List.prefix_of_prefix_length_le hfinding.place ((List.prefix_append _ _).trans hother.place)
    rw [List.length_append, List.length_singleton]
    omega
  exact ⟨_, _, _, hplace, hrange ▸ hfinding.target⟩

end Finding

/-! ### Steps of a scan -/

namespace Scan

variable {module : String} {source : Content} {scan next : Scan} {visit : Visit}

theorem step_eq_none (hstep : scan.step module source visit = (next, none)) :
    ∃ left : Scan, left.namespaces = visit.restack scan.namespaces ∧ left.seen = scan.seen ∧
      left.written = scan.written ∧ left.record module source visit = .ok next := by
  rw [step] at hstep
  split at hstep
  · cases hstep
  · rename_i entered henter
    obtain ⟨hnamespaces, hseen, hwritten⟩ := enter_eq_ok henter
    obtain ⟨hleft, hleftSeen, hleftWritten⟩ := leave_eq entered visit
    refine ⟨entered.leave visit, ?_, hleftSeen.trans hseen, hleftWritten.trans hwritten, ?_⟩
    · rw [hleft, hnamespaces, Visit.restack]
    · cases hrecord : (entered.leave visit).record module source visit with
      | error fault =>
          simp only [hrecord] at hstep
          cases hstep
      | ok after =>
          simp only [hrecord] at hstep
          cases hstep
          rfl

end Scan

/-! ### Whole scans -/

/-- What a scan over some nodes has come to: its stack is theirs, it has seen the ranges of targets among them, and
it has written the findings, which are the first targets with proofs, in the order of the nodes. -/
structure Tracked (module : String) (source : Content) (visits : List Visit) (scan : Scan)
    (findings : List Finding) : Prop where
  stack : scan.namespaces = stackAfter visits
  seen : ∀ range, range ∈ scan.seen ↔ HasTarget visits range
  written : scan.written = String.join (findings.map (Finding.line module))
  mem : ∀ finding, finding ∈ findings ↔ finding.IsFirst visits ∧ finding.HasProof source
  ordered : findings.Pairwise fun first second => first.before.length < second.before.length

namespace Tracked

variable {module : String} {source : Content} {before : List Visit} {scan next : Scan} {findings : List Finding}

theorem start : Tracked module source [] {} [] where
  stack := rfl
  seen := by
    intro range
    refine ⟨fun hmem => absurd hmem List.not_mem_nil, ?_⟩
    rintro ⟨before, visit, name, hplace, -⟩
    simp at hplace
  written := rfl
  mem := by
    intro finding
    refine ⟨fun hmem => absurd hmem List.not_mem_nil, ?_⟩
    rintro ⟨⟨hplace, -, -⟩, -⟩
    simp at hplace
  ordered := List.Pairwise.nil

section

variable (htracked : Tracked module source before scan findings) {visit : Visit}
  (hstack : next.namespaces = stackAfter (before ++ [visit]))

include htracked hstack

/-- A node that is no target, or not the first one of its range, adds nothing. -/
theorem skip (hseen : next.seen = scan.seen) (hwritten : next.written = scan.written)
    (hall : ∀ range name, IsTarget (stackAfter (before ++ [visit])) visit range name → HasTarget before range) :
    Tracked module source (before ++ [visit]) next findings where
  stack := hstack
  seen := by
    intro range
    rw [hseen, htracked.seen, hasTarget_concat_iff]
    refine (or_iff_left_of_imp ?_).symm
    rintro ⟨name, htarget⟩
    exact hall range name htarget
  written := hwritten.trans htracked.written
  mem := by
    intro finding
    rw [htracked.mem, Finding.isFirst_concat_iff]
    refine and_congr_left fun _ => (or_iff_left_of_imp ?_).symm
    rintro ⟨⟨rfl, rfl⟩, htarget, hfirst⟩
    exact absurd (hall _ _ htarget) hfirst
  ordered := htracked.ordered

/-- The first target of a range adds it, with a line where the source has a proof. -/
theorem add {range : Int × Int} {name : String}
    (htarget : IsTarget (stackAfter (before ++ [visit])) visit range name) (hfirst : ¬ HasTarget before range)
    (hseen : next.seen = scan.seen ++ [range])
    (hwritten : next.written = scan.written ++ ((proof? (source.stretch range.1 range.2)).elim "" fun proof =>
      Finding.line module ⟨before, visit, range, name, proof⟩)) :
    Tracked module source (before ++ [visit]) next
      (findings ++ (proof? (source.stretch range.1 range.2)).toList.map (.mk before visit range name)) where
  stack := hstack
  seen := by
    intro other
    rw [hseen, List.mem_append, htracked.seen, hasTarget_concat_iff, List.mem_singleton]
    refine or_congr_right ⟨?_, ?_⟩
    · rintro rfl
      exact ⟨name, htarget⟩
    · rintro ⟨otherName, hother⟩
      exact hother.range_eq htarget.ranged
  written := by
    rw [hwritten, htracked.written, List.map_append, String.join_append]
    cases proof? (source.stretch range.1 range.2) with
    | none => rfl
    | some proof => simp
  mem := by
    intro finding
    rw [List.mem_append, htracked.mem, Finding.isFirst_concat_iff, or_and_right]
    refine or_congr_right ?_
    simp only [List.mem_map, Option.mem_toList, Finding.HasProof]
    constructor
    · rintro ⟨proof, hproof, rfl⟩
      exact ⟨⟨⟨rfl, rfl⟩, htarget, hfirst⟩, hproof⟩
    · obtain ⟨_, _, otherRange, otherName, proof⟩ := finding
      rintro ⟨⟨⟨rfl, rfl⟩, hother, -⟩, hproof⟩
      obtain rfl := hother.range_eq htarget.ranged
      obtain rfl := hother.name_eq htarget.named
      exact ⟨proof, hproof, rfl⟩
  ordered := by
    rw [List.pairwise_append]
    refine ⟨htracked.ordered, ?_, ?_⟩
    · cases proof? (source.stretch range.1 range.2) with
      | none => exact List.Pairwise.nil
      | some proof => exact List.pairwise_singleton _ _
    · intro finding hfinding other hother
      obtain ⟨proof, -, rfl⟩ := List.mem_map.1 hother
      exact ((htracked.mem finding).1 hfinding).1.length_lt

end

theorem step (htracked : Tracked module source before scan findings) {visit : Visit}
    (hstep : scan.step module source visit = (next, none)) :
    ∃ more, Tracked module source (before ++ [visit]) next (findings ++ more) := by
  obtain ⟨left, hleft, hseen, hwritten, hrecord⟩ := Scan.step_eq_none hstep
  have hstack : left.namespaces = stackAfter (before ++ [visit]) := by
    rw [hleft, htracked.stack, stackAfter_concat]
  rcases Scan.record_inv hrecord with ⟨rfl, hall⟩ | ⟨range, name, htarget, hnew, hnamespaces, hnextSeen, hline⟩
  · refine ⟨[], ?_⟩
    rw [List.append_nil]
    refine htracked.skip hstack hseen hwritten fun range name htarget => ?_
    rw [← htracked.seen, ← hseen]
    exact hall range name (hstack ▸ htarget)
  · rw [hstack] at htarget
    rw [hseen, htracked.seen] at hnew
    rw [hstack, hwritten] at hline
    exact ⟨_, htracked.add (hnamespaces.trans hstack) htarget hnew (hseen ▸ hnextSeen) hline⟩

/-- A scan that comes to its end has written all first targets with proofs among the nodes. -/
theorem run (htracked : Tracked module source before scan findings) {visits : List Visit}
    (hrun : scan.run module source visits = (next, none)) :
    ∃ more, Tracked module source (before ++ visits) next (findings ++ more) := by
  induction visits generalizing before scan findings with
  | nil =>
      cases hrun
      exact ⟨[], by rwa [List.append_nil, List.append_nil]⟩
  | cons visit visits ih =>
      rw [Scan.run] at hrun
      cases hstep : scan.step module source visit with
      | mk after fault =>
          rw [hstep] at hrun
          cases fault with
          | some fault => cases hrun
          | none =>
              obtain ⟨first, hfirst⟩ := htracked.step hstep
              obtain ⟨rest, hrest⟩ := ih hfirst hrun
              rw [List.append_assoc, List.append_assoc, List.singleton_append] at hrest
              exact ⟨first ++ rest, hrest⟩

end Tracked

/-! ### Proofs -/

theorem proofFrom?_suffix {previous : Option Char} {text rest : List Char}
    (hrest : proofFrom? previous text = some rest) : rest <:+ text := by
  induction text generalizing previous with
  | nil => cases hrest
  | cons c text ih =>
      rw [proofFrom?] at hrest
      split at hrest
      · cases hrest
        exact List.suffix_rfl
      · exact (ih hrest).trans (List.suffix_cons c text)

theorem proof?_eq_some {source proof : List Char} (hproof : proof? source = some proof) :
    proof ≠ [] ∧ ∃ rest, rest <:+ source ∧ proof = clean rest := by
  rw [proof?] at hproof
  split at hproof
  · cases hproof
  · rename_i rest hrest
    split at hproof
    · cases hproof
    · rename_i hempty
      cases hproof
      exact ⟨fun hnil => hempty (List.isEmpty_iff.2 hnil), rest, proofFrom?_suffix hrest, rfl⟩

/-! ### Processed files -/

/-- What a scan that comes to its end writes are lines for findings in the order of their nodes, with ranges that
are all different. They are the nodes that come first among the targets of their ranges and have a proof in the
source, which is not empty and is what is left of an end of the source at the range when it is cleaned. -/
theorem one_record_for_range {tree : FileTree} {toolchain root name : Value} {scan : Scan}
    (hprocess : process tree toolchain root name = .scanned scan none) :
    ∃ path module content ast source, ∃ findings : List Finding,
      treeFile tree root name = .ok (path, module, content) ∧
      syntaxTree content = .ok ast ∧
      source? tree toolchain root path = .ok (some source) ∧
      scan.written = String.join (findings.map (Finding.line module)) ∧
      findings.Pairwise (fun first second =>
        first.before.length < second.before.length ∧ first.range ≠ second.range) ∧
      (∀ finding, finding ∈ findings ↔ finding.IsFirst (visits ast) ∧ finding.HasProof source) ∧
      ∀ finding ∈ findings, finding.proof ≠ [] ∧
        ∃ rest, rest <:+ source.stretch finding.range.1 finding.range.2 ∧
          finding.proof = clean rest := by
  obtain ⟨path, module, content, ast, source, hfile, hread, hsource, hrun⟩ := process_inv hprocess
  obtain ⟨findings, htracked⟩ := Tracked.start.run hrun
  rw [List.nil_append, List.nil_append] at htracked
  refine ⟨path, module, content, ast, source, findings, hfile, hread, hsource, htracked.written, ?_, htracked.mem, ?_⟩
  · refine htracked.ordered.imp_of_mem fun {first second} hfirst hsecond hbefore => ⟨hbefore, ?_⟩
    exact ((htracked.mem first).1 hfirst).1.range_ne ((htracked.mem second).1 hsecond).1 hbefore
  · intro finding hfinding
    exact proof?_eq_some ((htracked.mem finding).1 hfinding).2

/-! ### A range of three nodes -/

def nestedNode : Value := .obj [("kind", .str "declaration"), ("args", .arr [definitionNode "x" 0 4])]

/-- A namespace, and one range for a definition of its name and for a declaration with a definition in it. -/
def sharedRange : Value := .arr [wordNode "Command.namespace" "A", definitionNode "A" 0 4, nestedNode]

def sharedText : String :=
  "[\x7b\"kind\":\"Command.namespace\",\"rawVal\":\"A\"\x7d," ++
    "\x7b\"kind\":\"def\",\"rawVal\":\"A\",\"pos\":0,\"endPos\":4\x7d," ++
    "\x7b\"kind\":\"declaration\",\"args\":[\x7b\"kind\":\"def\",\"rawVal\":\"x\",\"pos\":0,\"endPos\":4\x7d]\x7d]"

def sharedProject : FileTree where
  here := []
  files := [(["p", ".jixia", "M.ast.json"], sharedText), (["p", "M.lean"], "by a")]
  directories := []

set_option maxRecDepth 4000 in
theorem read_sharedText : syntaxTree sharedText = .ok sharedRange := by
  rw [syntaxTree_ofText]
  cbv

/-- The scan within the namespace. -/
def enteredScan : Scan := { namespaces := ["A"], printed := "  [NS] Entered: A\n" }

def sharedScan : Scan :=
  { enteredScan with
    seen := [(0, 4)]
    written := Records.recordLine (.str "M", .str "A.x") (.str "by a") }

def nestedVisit : Visit where
  whole := nestedNode
  fields := [("kind", .str "declaration"), ("args", .arr [definitionNode "x" 0 4])]

theorem record_nestedVisit : enteredScan.record "M" "by a" nestedVisit = .ok sharedScan := by
  have hrange : range? nestedVisit.whole = .ok (some (0, 4)) := rfl
  have hname : nameOf (.obj nestedVisit.fields) = .ok "x" := rfl
  have hfull : fullName enteredScan.namespaces "x" = "A.x" := rfl
  rw [Scan.record_eq_ok "M" "by a" _ nestedVisit (by decide) hrange rfl hname (by decide)
    proof?_sectionSlice, hfull, String.ofList_toList]
  rfl

theorem run_sharedRange : Scan.run "M" "by a" {} (visits sharedRange) = (sharedScan, none) := by
  have hopening : Scan.step "M" "by a" {} ⟨wordNode "Command.namespace" "A",
      [("kind", .str "Command.namespace"), ("rawVal", .str "A")]⟩ = (enteredScan, none) := rfl
  have hown : enteredScan.step "M" "by a" ⟨definitionNode "A" 0 4,
      [("kind", .str "def"), ("rawVal", .str "A"), ("pos", .int 0), ("endPos", .int 4)]⟩ = (enteredScan, none) := rfl
  have hnested : enteredScan.step "M" "by a" nestedVisit = (sharedScan, none) := by
    rw [Scan.step, Scan.enter_of_not_opens (by decide)]
    simp only [Scan.leave_of_not_closes (show nestedVisit.closes = false by decide), record_nestedVisit]
  have hwithin : sharedScan.step "M" "by a" sectionVisit = (sharedScan, none) := rfl
  have hvisits : visits sharedRange =
      [⟨wordNode "Command.namespace" "A", [("kind", .str "Command.namespace"), ("rawVal", .str "A")]⟩,
        ⟨definitionNode "A" 0 4, [("kind", .str "def"), ("rawVal", .str "A"), ("pos", .int 0), ("endPos", .int 4)]⟩,
        nestedVisit, sectionVisit] := rfl
  simp only [hvisits, Scan.run, hopening, hown, hnested, hwithin]

theorem process_sharedProject :
    process sharedProject (.str "t") (.str "p") (.str "M.ast.json") = .scanned sharedScan none := by
  have hfile : treeFile sharedProject (.str "p") (.str "M.ast.json") =
      .ok ("p/.jixia/M.ast.json", "M", sharedText) := rfl
  have hsource : source? sharedProject (.str "t") (.str "p") "p/.jixia/M.ast.json" = .ok (some "by a") := rfl
  rw [process_of_source hfile read_sharedText hsource, run_sharedRange]

theorem sharedRange_recorded_once :
    process sharedProject (.str "t") (.str "p") (.str "M.ast.json") = .scanned sharedScan none ∧
      ∃ module source, ∃ findings : List Finding,
        sharedScan.written = String.join (findings.map (Finding.line module)) ∧
        findings.Pairwise (fun first second =>
          first.before.length < second.before.length ∧ first.range ≠ second.range) ∧
        (∀ finding, finding ∈ findings ↔ finding.IsFirst (visits sharedRange) ∧ finding.HasProof source) ∧
        ∀ finding ∈ findings, finding.proof ≠ [] ∧
          ∃ rest, rest <:+ source.stretch finding.range.1 finding.range.2 ∧ finding.proof = clean rest := by
  refine ⟨process_sharedProject, ?_⟩
  obtain ⟨_, module, content, ast, source, findings, hfile, hread, -, hfindings⟩ :=
    one_record_for_range process_sharedProject
  cases hfile
  obtain rfl : sharedRange = ast := Except.ok.inj (read_sharedText.symm.trans hread)
  exact ⟨_, source, findings, hfindings⟩

end ProofDump.Ast
