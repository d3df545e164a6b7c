import Mathlib
import ProofDump.Proofs.Ast.FullName
import ProofDump.Proofs.Ast.Scopes
import ProofDump.Proofs.Content
import ProofDump.Proofs.Except

/-!
# The names in records

A scan over the commands of a file writes records at declarations, with full names made from the stack of
namespaces at each. For a file of well-formed blocks that stack is `kept`, so a record has its qualified
name exactly when the namespaces lost from the stack do not count in it and the marks of the root were
cut out well.
-/

namespace ProofDump.Ast

/-! ### Nodes -/

namespace Visit

def opens (visit : Visit) : Bool := kindHas visit.fields "namespace"

def closes (visit : Visit) : Bool := kindHas visit.fields "command.end"

/-- The stack of namespaces stays as it is at the node. -/
def Still (visit : Visit) : Prop := visit.opens = false ∧ visit.closes = false

instance (visit : Visit) : Decidable visit.Still := inferInstanceAs (Decidable (_ ∧ _))

/-- The namespaces that a node puts on the stack. -/
def pushed (visit : Visit) : List String :=
  if visit.opens then entry (nameOf (.obj visit.fields)).toOption else []

/-- Nothing at all happens at the node. -/
def Silent (visit : Visit) : Prop := visit.Still ∧ declares visit.fields = false

end Visit

theorem opens_of_kindHas {visit : Visit} (hkind : kindHas visit.fields "command.namespace" = true) :
    visit.opens = true := by
  have hword : "namespace".toList <:+: "command.namespace".toList := ⟨"command.".toList, [], by decide⟩
  exact Text.contains_iff.2 (hword.trans (Text.contains_iff.1 hkind))

/-- The node can be recorded at a stack of namespaces: it declares something, in a range, and its name is found
and is not that of the innermost namespace. -/
structure IsTarget (stack : List String) (visit : Visit) (range : Int × Int) (name : String) : Prop where
  declared : declares visit.fields = true
  ranged : range? visit.whole = .ok (some range)
  named : nameOf (.obj visit.fields) = .ok name
  known : name ≠ unknown
  inner : stack.getLast? ≠ some name

namespace IsTarget

variable {stack : List String} {visit : Visit} {range other : Int × Int} {name otherName : String}

theorem range_eq (htarget : IsTarget stack visit range name) (hranged : range? visit.whole = .ok (some other)) :
    range = other := by
  have hsame := htarget.ranged.symm.trans hranged
  rwa [Except.ok.injEq, Option.some.injEq] at hsame

theorem name_eq (htarget : IsTarget stack visit range name)
    (hnamed : nameOf (.obj visit.fields) = .ok otherName) : name = otherName := by
  have hsame := htarget.named.symm.trans hnamed
  rwa [Except.ok.injEq] at hsame

end IsTarget

/-! ### Steps of a scan -/

namespace Scan

variable {module : String} {source : Content} {scan next : Scan} {visit : Visit}

theorem enter_of_not_opens (hopens : visit.opens = false) : scan.enter visit = .ok scan := by
  rw [enter, show kindHas visit.fields "namespace" = false from hopens]
  rfl

theorem enter_of_opens (hopens : visit.opens = true) {name : String}
    (hname : nameOf (.obj visit.fields) = .ok name) :
    ∃ next, scan.enter visit = .ok next ∧ next.written = scan.written ∧
      next.namespaces = scan.namespaces ++ entry (some name) := by
  rw [enter, show kindHas visit.fields "namespace" = true from hopens, hname]
  by_cases hunknown : name = unknown
  · refine ⟨scan, ?_, rfl, ?_⟩
    · exact if_pos hunknown
    · simp [entry, hunknown]
  · refine ⟨_, if_neg hunknown, rfl, ?_⟩
    simp [entry, hunknown]

theorem leave_of_not_closes (hcloses : visit.closes = false) : scan.leave visit = scan := by
  rw [leave, show kindHas visit.fields "command.end" = false from hcloses]
  rfl

theorem record_of_not_declares (hdeclares : declares visit.fields = false) :
    scan.record module source visit = .ok scan := by
  rw [record, hdeclares]
  rfl

theorem step_of_silent (hsilent : visit.Silent) : scan.step module source visit = (scan, none) := by
  rw [step, enter_of_not_opens hsilent.1.1]
  simp only [leave_of_not_closes hsilent.1.2, record_of_not_declares hsilent.2]

theorem step_of_opens (hopens : visit.opens = true) (hcloses : visit.closes = false)
    (hdeclares : declares visit.fields = false) {name : String}
    (hname : nameOf (.obj visit.fields) = .ok name) :
    ∃ next, scan.step module source visit = (next, none) ∧ next.written = scan.written ∧
      next.namespaces = scan.namespaces ++ entry (some name) := by
  obtain ⟨next, henter, hnext⟩ := enter_of_opens hopens hname
  refine ⟨next, ?_, hnext⟩
  rw [step, henter]
  simp only [leave_of_not_closes hcloses, record_of_not_declares hdeclares]

theorem step_of_closes (hopens : visit.opens = false) (hcloses : visit.closes = true)
    (hdeclares : declares visit.fields = false) :
    ∃ next, scan.step module source visit = (next, none) ∧ next.written = scan.written ∧
      next.namespaces = scan.namespaces.dropLast := by
  refine ⟨scan.leave visit, ?_, ?_, ?_⟩
  · rw [step, enter_of_not_opens hopens]
    simp only [record_of_not_declares hdeclares]
  · rw [leave, show kindHas visit.fields "command.end" = true from hcloses]
    rfl
  · rw [leave, show kindHas visit.fields "command.end" = true from hcloses]
    rfl

theorem enter_eq_ok (henter : scan.enter visit = .ok next) :
    next.namespaces = scan.namespaces ++ visit.pushed ∧ next.seen = scan.seen ∧ next.written = scan.written := by
  cases hopens : visit.opens with
  | false =>
      rw [enter_of_not_opens hopens] at henter
      cases henter
      simp [Visit.pushed, hopens]
  | true =>
      rw [enter, show kindHas visit.fields "namespace" = true from hopens] at henter
      obtain ⟨name, hname, henter⟩ := bind_eq_ok.1 henter
      have hpushed : visit.pushed = entry (some name) := by
        rw [Visit.pushed, hopens, hname]
        rfl
      rw [hpushed]
      split at henter
      · rename_i hunknown
        cases henter
        simp [entry, hunknown]
      · rename_i hknown
        cases henter
        simp [entry, hknown]

theorem leave_eq (scan : Scan) (visit : Visit) :
    (scan.leave visit).namespaces = (if visit.closes then scan.namespaces.dropLast else scan.namespaces) ∧
      (scan.leave visit).seen = scan.seen ∧ (scan.leave visit).written = scan.written := by
  rw [leave, Visit.closes]
  split <;> simp

/-- What a node adds to the records: nothing where all that it is a target of was seen, and else its range, with
a line if there is a proof. -/
theorem record_inv (hrecord : scan.record module source visit = .ok next) :
    next = scan ∧ (∀ range name, IsTarget scan.namespaces visit range name → range ∈ scan.seen) ∨
      ∃ range name, IsTarget scan.namespaces visit range name ∧ range ∉ scan.seen ∧
        next.namespaces = scan.namespaces ∧ next.seen = scan.seen ++ [range] ∧
        next.written = scan.written ++ ((proof? (source.stretch range.1 range.2)).elim "" fun proof =>
          Records.recordLine (.str module, .str (fullName scan.namespaces name)) (.str (String.ofList proof))) := by
  cases hdeclares : declares visit.fields with
  | false =>
      rw [record_of_not_declares hdeclares] at hrecord
      cases hrecord
      refine .inl ⟨rfl, fun range name htarget => ?_⟩
      rw [htarget.declared] at hdeclares
      cases hdeclares
  | true =>
      unfold record at hrecord
      simp only [hdeclares, Bool.not_true, Bool.false_eq_true, if_false] at hrecord
      obtain ⟨found, hfound, hrecord⟩ := bind_eq_ok.1 hrecord
      split at hrecord
      · cases hrecord
        refine .inl ⟨rfl, fun range name htarget => ?_⟩
        rw [htarget.ranged] at hfound
        cases hfound
      · rename_i range
        split at hrecord
        · rename_i hseen
          cases hrecord
          refine .inl ⟨rfl, fun other name htarget => ?_⟩
          rw [htarget.range_eq hfound]
          exact List.contains_iff_mem.1 hseen
        · rename_i hseen
          obtain ⟨name, hname, hrecord⟩ := bind_eq_ok.1 hrecord
          split at hrecord
          · rename_i hout
            cases hrecord
            refine .inl ⟨rfl, fun other otherName htarget => ?_⟩
            obtain rfl := htarget.name_eq hname
            exact absurd hout (not_or.2 ⟨htarget.known, htarget.inner⟩)
          · rename_i hnew
            rw [not_or] at hnew
            refine .inr ⟨range, name, ⟨hdeclares, hfound, hname, hnew.1, hnew.2⟩,
              fun hmem => hseen (List.contains_iff_mem.2 hmem), ?_⟩
            split at hrecord
            · rename_i hproof
              cases hrecord
              simp [hproof]
            · rename_i proof hproof
              cases hrecord
              simp [hproof]

theorem record_cases (hrecord : scan.record module source visit = .ok next) :
    next.namespaces = scan.namespaces ∧ (next.written = scan.written ∨
      ∃ name proof, declares visit.fields = true ∧ nameOf (.obj visit.fields) = .ok name ∧
        next.written = scan.written ++
          Records.recordLine (.str module, .str (fullName scan.namespaces name)) (.str proof)) := by
  rcases record_inv hrecord with ⟨rfl, -⟩ | ⟨range, name, htarget, -, hnamespaces, -, hwritten⟩
  · exact ⟨rfl, .inl rfl⟩
  · refine ⟨hnamespaces, ?_⟩
    cases hproof : proof? (source.stretch range.1 range.2) with
    | none =>
        rw [hproof] at hwritten
        exact .inl (hwritten.trans String.append_empty)
    | some proof =>
        rw [hproof] at hwritten
        exact .inr ⟨name, String.ofList proof, htarget.declared, htarget.named, hwritten⟩

/-- What is recorded: a declaration in a range not seen before, with a name that is found and is not that of
the innermost namespace, and with a proof. -/
theorem record_eq_ok (module : String) (source : Content) (scan : Scan) (visit : Visit)
    {range : Int × Int} {name : String} {proof : List Char}
    (hdeclares : declares visit.fields = true) (hrange : range? visit.whole = .ok (some range))
    (hseen : scan.seen.contains range = false) (hname : nameOf (.obj visit.fields) = .ok name)
    (hnew : ¬ (name = unknown ∨ scan.namespaces.getLast? = some name))
    (hproof : proof? (source.stretch range.1 range.2) = some proof) :
    scan.record module source visit = .ok { scan with
      seen := scan.seen ++ [range]
      written := scan.written ++
        Records.recordLine (.str module, .str (fullName scan.namespaces name))
          (.str (String.ofList proof)) } := by
  rw [record, hdeclares, hrange]
  show (if scan.seen.contains range = true then _ else _) = _
  rw [hseen, hname]
  show (if name = unknown ∨ scan.namespaces.getLast? = some name then _ else _) = _
  rw [if_neg hnew, hproof]
  rfl

theorem step_of_still (module : String) (source : Content) (scan : Scan) (hstill : visit.Still) :
    (scan.step module source visit).1.namespaces = scan.namespaces ∧
      ((scan.step module source visit).1.written = scan.written ∨
        ∃ name proof, declares visit.fields = true ∧ nameOf (.obj visit.fields) = .ok name ∧
          (scan.step module source visit).1.written = scan.written ++
            Records.recordLine (.str module, .str (fullName scan.namespaces name)) (.str proof)) := by
  rw [step, enter_of_not_opens hstill.1]
  simp only [leave_of_not_closes hstill.2]
  cases hrecord : scan.record module source visit with
  | error fault => exact ⟨rfl, .inl rfl⟩
  | ok next => exact record_cases hrecord

/-! ### Runs of a scan -/

theorem run_append (first second : List Visit) :
    scan.run module source (first ++ second) =
      match scan.run module source first with
      | (next, some fault) => (next, some fault)
      | (next, none) => next.run module source second := by
  induction first generalizing scan with
  | nil => rfl
  | cons visit first ih =>
      rw [List.cons_append, run, run]
      cases hstep : scan.step module source visit with
      | mk next fault =>
          cases fault with
          | none => exact ih
          | some fault => rfl

end Scan

/-- A record at a declaration: where it is, its node, its name and its proof. -/
structure Record where
  place : Place
  visit : Visit
  name : String
  proof : String

namespace Record

def fullName (record : Record) : String := Ast.fullName (kept record.place.scopes) record.name

def line (module : String) (record : Record) : String :=
  Records.recordLine (.str module, .str record.fullName) (.str record.proof)

def site (record : Record) : Place × Visit := (record.place, record.visit)

end Record

/-- The nodes of a command that declare something. -/
def Place.sites (place : Place) : List (Place × Visit) :=
  ((visits place.tree).filter fun visit => declares visit.fields).map (place, ·)

/-- A scan wrote records at some of the sites, in their order, under the names of their nodes. -/
def Wrote (module : String) (before after : Scan) (sites : List (Place × Visit)) : Prop :=
  ∃ records : List Record,
    after.written = before.written ++ String.join (records.map (·.line module)) ∧
    (records.map Record.site).Sublist sites ∧
    ∀ record ∈ records, nameOf (.obj record.visit.fields) = .ok record.name

namespace Wrote

variable {module : String} {before middle after : Scan} {sites others : List (Place × Visit)}

theorem nothing (hwritten : after.written = before.written) : Wrote module before after sites :=
  ⟨[], by simp [hwritten], List.nil_sublist sites, by simp⟩

theorem append (hfirst : Wrote module before middle sites) (hsecond : Wrote module middle after others) :
    Wrote module before after (sites ++ others) := by
  obtain ⟨records, hwritten, hsublist, hnames⟩ := hfirst
  obtain ⟨more, hmore, hmoreSublist, hmoreNames⟩ := hsecond
  refine ⟨records ++ more, ?_, ?_, ?_⟩
  · rw [hmore, hwritten, List.map_append, String.join_append, String.append_assoc]
  · rw [List.map_append]
    exact hsublist.append hmoreSublist
  · exact List.forall_mem_append.2 ⟨hnames, hmoreNames⟩

theorem append_left (hfirst : Wrote module before after sites) :
    Wrote module before after (sites ++ others) := hfirst.append (nothing rfl)

end Wrote

/-- A run over nodes writes records at some of the sites and, unless a fault ends it, leaves the stack. -/
def Advances (module : String) (source : Content) (scan : Scan) (visits : List Visit)
    (sites : List (Place × Visit)) (stack : List String) : Prop :=
  Wrote module scan (scan.run module source visits).1 sites ∧
    ((scan.run module source visits).2 = none →
      (scan.run module source visits).1.namespaces = stack)

namespace Advances

variable {module : String} {source : Content} {scan : Scan} {first second : List Visit}
  {sites others : List (Place × Visit)} {stack final : List String}

theorem append (hfirst : Advances module source scan first sites stack)
    (hsecond : ∀ next : Scan, next.namespaces = stack → Advances module source next second others final) :
    Advances module source scan (first ++ second) (sites ++ others) final := by
  obtain ⟨hwrote, hstack⟩ := hfirst
  rw [Advances, Scan.run_append]
  cases hrun : scan.run module source first with
  | mk next fault =>
      rw [hrun] at hwrote hstack
      cases fault with
      | some fault => exact ⟨hwrote.append_left, fun hnone => by cases hnone⟩
      | none =>
          obtain ⟨hmore, hfinal⟩ := hsecond next (hstack rfl)
          exact ⟨hwrote.append hmore, hfinal⟩

theorem of_step {visit : Visit} {next : Scan} (hstep : scan.step module source visit = (next, none))
    (hwritten : next.written = scan.written) :
    Advances module source scan [visit] [] next.namespaces := by
  rw [Advances, Scan.run, hstep]
  exact ⟨.nothing hwritten, fun _ => rfl⟩

theorem of_silent {visits : List Visit} (hsilent : ∀ visit ∈ visits, visit.Silent) :
    Advances module source scan visits [] scan.namespaces := by
  induction visits with
  | nil => exact ⟨.nothing rfl, fun _ => rfl⟩
  | cons visit visits ih =>
      rw [List.forall_mem_cons] at hsilent
      rw [Advances, Scan.run, Scan.step_of_silent hsilent.1]
      exact ih hsilent.2

theorem of_still {place : Place} (hplace : scan.namespaces = kept place.scopes) {visit : Visit}
    (hstill : visit.Still) :
    Advances module source scan [visit]
      ((([visit]).filter fun visit => declares visit.fields).map (place, ·)) scan.namespaces := by
  obtain ⟨hnamespaces, hwritten⟩ := Scan.step_of_still module source scan hstill
  have hrun : (scan.run module source [visit]).1 = (scan.step module source visit).1 := by
    rw [Scan.run]
    cases hstep : scan.step module source visit with
    | mk next fault => cases fault <;> rfl
  rw [Advances, hrun]
  refine ⟨?_, fun _ => hnamespaces⟩
  rcases hwritten with hwritten | ⟨name, proof, hdeclares, hname, hwritten⟩
  · exact .nothing hwritten
  · refine ⟨[⟨place, visit, name, proof⟩], ?_, ?_, ?_⟩
    · rw [hwritten, hplace]
      simp [Record.line, Record.fullName]
    · simp [hdeclares, Record.site]
    · simpa using hname

theorem of_still_all {place : Place} {visits : List Visit} (hstill : ∀ visit ∈ visits, visit.Still)
    {scan : Scan} (hplace : scan.namespaces = kept place.scopes) :
    Advances module source scan visits
      ((visits.filter fun visit => declares visit.fields).map (place, ·)) scan.namespaces := by
  induction visits generalizing scan with
  | nil => exact ⟨.nothing rfl, fun _ => rfl⟩
  | cons visit visits ih =>
      rw [List.forall_mem_cons] at hstill
      rw [← List.singleton_append, List.filter_append, List.map_append]
      refine (of_still hplace hstill.1).append fun next hnext => ?_
      rw [← hnext]
      exact ih hstill.2 (hnext.trans hplace)

end Advances

/-! ### Well-formed blocks -/

/-- A command whose node is of a kind with the word in it, and in which nothing else happens. -/
def IsBracket (word : String) (tree : Value) (head : Visit) : Prop :=
  kindHas head.fields word = true ∧ declares head.fields = false ∧
    ∃ below, visits tree = head :: below ∧ ∀ visit ∈ below, visit.Silent

/-- The command opens a scope: a namespace of the name, or a section. -/
def Opens (tree : Value) : Option String → Prop
  | none => ∃ head, IsBracket "command.section" tree head ∧ head.Still
  | some name => ∃ head, IsBracket "command.namespace" tree head ∧ head.closes = false ∧
      nameOf (.obj head.fields) = .ok name

/-- The command ends a scope. -/
def Ends (tree : Value) : Prop := ∃ head, IsBracket "command.end" tree head ∧ head.opens = false

namespace Blocks

/-- Scopes are opened and ended by the commands for it, and at no other command. -/
def WellFormed : Blocks → Prop
  | nil => True
  | command tree rest => (∀ visit ∈ visits tree, visit.Still) ∧ rest.WellFormed
  | scope opening name body closing rest =>
    Opens opening name ∧ body.WellFormed ∧ Ends closing ∧ rest.WellFormed

/-- The nodes of a file that declare something, with their places. -/
def sites (blocks : Blocks) : List (Place × Visit) := blocks.places.flatMap Place.sites

end Blocks

variable {module : String} {source : Content}

theorem Opens.advances {tree : Value} {name : Option String} (hopens : Opens tree name) (scan : Scan) :
    Advances module source scan (visits tree) [] (scan.namespaces ++ entry name) := by
  cases name with
  | none =>
      obtain ⟨head, ⟨-, hdeclares, below, hvisits, hbelow⟩, hstill⟩ := hopens
      rw [hvisits, show entry none = [] from rfl, List.append_nil]
      exact .of_silent (List.forall_mem_cons.2 ⟨⟨hstill, hdeclares⟩, hbelow⟩)
  | some name =>
      obtain ⟨head, ⟨hkind, hdeclares, below, hvisits, hbelow⟩, hcloses, hname⟩ := hopens
      obtain ⟨next, hstep, hwritten, hnext⟩ :=
        Scan.step_of_opens (opens_of_kindHas hkind) hcloses hdeclares hname
      rw [hvisits, ← List.singleton_append, ← hnext]
      exact (Advances.of_step hstep hwritten).append fun later hlater => hlater ▸ .of_silent hbelow

theorem Ends.advances {tree : Value} (hends : Ends tree) (scan : Scan) :
    Advances module source scan (visits tree) [] scan.namespaces.dropLast := by
  obtain ⟨head, ⟨hcloses, hdeclares, below, hvisits, hbelow⟩, hopens⟩ := hends
  obtain ⟨next, hstep, hwritten, hnext⟩ := Scan.step_of_closes hopens hcloses hdeclares
  rw [hvisits, ← List.singleton_append, ← hnext]
  exact (Advances.of_step hstep hwritten).append fun later hlater => hlater ▸ .of_silent hbelow

theorem visitItems_append (first second : List Value) :
    visitItems (first ++ second) = visitItems first ++ visitItems second := by
  induction first with
  | nil => rfl
  | cons item first ih => rw [List.cons_append, visitItems, visitItems, ih, List.append_assoc]

/-- A run over well-formed blocks writes records at their declarations and takes as many entries from the
stack as there are blocks that put nothing there. -/
theorem Blocks.WellFormed.advances {blocks : Blocks} (hblocks : blocks.WellFormed) {outer : List Scope}
    {inner : Scope} {scan : Scan} (hscan : scan.namespaces = kept (outer ++ [inner])) :
    Advances module source scan (visitItems blocks.commands)
      ((blocks.placesIn outer inner).flatMap Place.sites) (scan.namespaces.rdrop blocks.entryless) := by
  -- The scopes are general: inside a scope they are one more, and after it the innermost has lost more.
  induction blocks generalizing outer inner scan with
  | nil => exact ⟨.nothing rfl, fun _ => (List.rdrop_zero _).symm⟩
  | command tree rest ih =>
      rw [commands, visitItems, placesIn, List.flatMap_cons, entryless]
      refine (Advances.of_still_all hblocks.1 hscan).append fun next hnext => ?_
      rw [← hnext]
      exact ih hblocks.2 (hnext.trans hscan)
  | scope opening name body closing rest bodyIh restIh =>
      obtain ⟨hopens, hbody, hends, hrest⟩ := hblocks
      rw [commands, List.cons_append, visitItems, visitItems_append, visitItems, placesIn,
        List.flatMap_append, entryless, ← rdrop_rdrop]
      refine (hopens.advances scan).append fun opened hopened => ?_
      have hinside : opened.namespaces = kept (outer ++ [inner] ++ [⟨name, 0⟩]) := by
        rw [kept_concat, List.rdrop_zero, hopened, hscan]
      refine (bodyIh hbody hinside).append fun atEnd hatEnd => ?_
      refine (hends.advances atEnd).append fun after hafter => ?_
      -- The end takes the entry of the scope, or one from before it where the scope put none there.
      have hstack : after.namespaces = scan.namespaces.rdrop (taken name body.entryless) := by
        rw [hafter, hatEnd, hopened, dropLast_rdrop_entry]
      rw [← hstack]
      refine restIh hrest ?_
      rw [hstack, hscan, kept_concat, kept_concat, rdrop_rdrop]

/-! ### Processed files -/

theorem syntaxTree_ofText (text : String) :
    syntaxTree (.ofText text) = Json.read (String.ofList (Text.fileText text)) := by
  rw [syntaxTree, Content.text_ofText]
  rfl

theorem process_inv {tree : FileTree} {toolchain root name : Value} {scan : Scan} {fault : Option Fault}
    (hprocess : process tree toolchain root name = .scanned scan fault) :
    ∃ path module content ast source, treeFile tree root name = .ok (path, module, content) ∧
      syntaxTree content = .ok ast ∧
      source? tree toolchain root path = .ok (some source) ∧
      Scan.run module source {} (visits ast) = (scan, fault) := by
  rw [process] at hprocess
  split at hprocess
  · cases hprocess
  · rename_i path module content hfile
    split at hprocess
    · cases hprocess
    · rename_i ast hread
      split at hprocess
      · cases hprocess
      · cases hprocess
      · rename_i source hsource
        cases hprocess
        exact ⟨path, module, content, ast, source, hfile, hread, hsource, rfl⟩

theorem process_eq_scanned {tree : FileTree} {toolchain root name : Value} {path : String} {content : Content}
    {ast : Value} (hfile : treeFile tree root name = .ok (path, module, content))
    (hread : syntaxTree content = .ok ast) {scan : Scan}
    {fault : Option Fault} (hprocess : process tree toolchain root name = .scanned scan fault) :
    ∃ source, Scan.run module source {} (visits ast) = (scan, fault) := by
  obtain ⟨_, _, _, _, source, hsameFile, hsameRead, -, hrun⟩ := process_inv hprocess
  rw [hfile] at hsameFile
  cases hsameFile
  rw [hread] at hsameRead
  cases hsameRead
  exact ⟨source, hrun⟩

theorem process_of_source {tree : FileTree} {toolchain root name : Value} {path : String} {content source : Content}
    {ast : Value} (hfile : treeFile tree root name = .ok (path, module, content))
    (hread : syntaxTree content = .ok ast)
    (hsource : source? tree toolchain root path = .ok (some source)) :
    process tree toolchain root name =
      .scanned (Scan.run module source {} (visits ast)).1
        (Scan.run module source {} (visits ast)).2 := by
  simp only [process, hfile, hread, hsource]

/-- The records of a file of well-formed blocks are made at some of its declarations, in their order. The
full name of a record is the qualified name in the open namespaces exactly when what is lost from the
stack does not count in it and the marks are cut out well, and nothing is lost exactly where no block
that put nothing on the stack is over within an open namespace. -/
theorem recorded_name_qualified_iff {tree : FileTree} {toolchain root name : Value}
    {path : String} {content : Content} {blocks : Blocks}
    (hfile : treeFile tree root name = .ok (path, module, content))
    (hread : syntaxTree content = .ok (.arr blocks.commands))
    (hblocks : blocks.WellFormed) {scan : Scan} {fault : Option Fault}
    (hprocess : process tree toolchain root name = .scanned scan fault) :
    ∃ records : List Record, scan.written = String.join (records.map (·.line module)) ∧
      (records.map Record.site).Sublist blocks.sites ∧
      ∀ record ∈ records, nameOf (.obj record.visit.fields) = .ok record.name ∧
        (record.fullName = qualified (opened record.place.scopes) record.name ↔
          qualified (kept record.place.scopes) record.name =
              qualified (opened record.place.scopes) record.name ∧
            MarksCutWell (kept record.place.scopes ++ [record.name])) ∧
        (kept record.place.scopes = opened record.place.scopes ↔ Undisturbed record.place.scopes) := by
  obtain ⟨source, hrun⟩ := process_eq_scanned hfile hread hprocess
  have hstart : ({} : Scan).namespaces = kept ([] ++ [⟨none, 0⟩]) := rfl
  obtain ⟨⟨records, hwritten, hsublist, hnames⟩, -⟩ : Advances module source {} _ blocks.sites _ :=
    hblocks.advances hstart
  rw [show visitItems blocks.commands = visits (.arr blocks.commands) from rfl, hrun] at hwritten
  refine ⟨records, by simpa using hwritten, hsublist, fun record hrecord => ⟨hnames record hrecord, ?_, ?_⟩⟩
  · exact fullName_eq_qualified_iff (kept_sublist_opened record.place.scopes) record.name
  · exact kept_eq_opened_iff

/-! ### A section in a namespace -/

def wordNode (kind word : String) : Value := .obj [("kind", .str kind), ("rawVal", .str word)]

def bareNode (kind : String) : Value := .obj [("kind", .str kind)]

def definitionNode (name : String) (start stop : Int) : Value :=
  .obj [("kind", .str "def"), ("rawVal", .str name), ("pos", .int start), ("endPos", .int stop)]

/-- A namespace with a definition after a section. -/
def sectionBlocks : Blocks :=
  .scope (wordNode "Command.namespace" "A") (some "A")
    (.scope (bareNode "Command.section") none .nil (bareNode "Command.end")
      (.command (definitionNode "x" 0 4) .nil))
    (bareNode "Command.end") .nil

def sectionText : String :=
  "[\x7b\"kind\":\"Command.namespace\",\"rawVal\":\"A\"\x7d," ++
    "\x7b\"kind\":\"Command.section\"\x7d,\x7b\"kind\":\"Command.end\"\x7d," ++
    "\x7b\"kind\":\"def\",\"rawVal\":\"x\",\"pos\":0,\"endPos\":4\x7d," ++
    "\x7b\"kind\":\"Command.end\"\x7d]"

def sectionProject : FileTree where
  here := []
  files := [(["p", ".jixia", "M.ast.json"], sectionText), (["p", "M.lean"], "by a")]
  directories := []

theorem sectionBlocks_wellFormed : sectionBlocks.WellFormed := by
  refine ⟨?_, ⟨?_, trivial, ?_, by decide, trivial⟩, ?_, trivial⟩
  · exact ⟨_, ⟨by decide, by decide, [], rfl, by simp⟩, by decide, rfl⟩
  · exact ⟨_, ⟨by decide, by decide, [], rfl, by simp⟩, by decide⟩
  · exact ⟨_, ⟨by decide, by decide, [], rfl, by simp⟩, by decide⟩
  · exact ⟨_, ⟨by decide, by decide, [], rfl, by simp⟩, by decide⟩

theorem treeFile_sectionProject :
    treeFile sectionProject (.str "p") (.str "M.ast.json") =
      .ok ("p/.jixia/M.ast.json", "M", sectionText) := rfl

set_option maxRecDepth 4000 in
theorem read_sectionText : syntaxTree sectionText = .ok (.arr sectionBlocks.commands) := by
  rw [syntaxTree_ofText]
  cbv

theorem proof?_sectionSource : proof? "by a".toList = some "by a".toList := by
  have hfrom : proofFrom? none "by a".toList = some "by a".toList := by decide +kernel
  have hclean : clean "by a".toList = "by a".toList := by cbv
  simp only [proof?, hfrom, hclean]
  rfl

theorem proof?_sectionSlice : proof? (Content.stretch "by a" 0 4) = some "by a".toList := by
  have hslice : Content.stretch "by a" 0 4 = "by a".toList := Content.stretch_ofText _ _ _
  rw [hslice, proof?_sectionSource]

def sectionScan : Scan where
  seen := [(0, 4)]
  written := Records.recordLine (.str "M", .str "x") (.str "by a")
  printed := "  [NS] Entered: A\n"

def sectionVisit : Visit where
  whole := definitionNode "x" 0 4
  fields := [("kind", .str "def"), ("rawVal", .str "x"), ("pos", .int 0), ("endPos", .int 4)]

theorem record_sectionVisit :
    Scan.record "M" "by a" { printed := "  [NS] Entered: A\n" } sectionVisit = .ok sectionScan := by
  have hrange : range? sectionVisit.whole = .ok (some (0, 4)) := rfl
  have hname : nameOf (.obj sectionVisit.fields) = .ok "x" := rfl
  have hfull : fullName [] "x" = "x" := rfl
  rw [Scan.record_eq_ok "M" "by a" _ sectionVisit (by decide) hrange rfl hname (by decide)
    proof?_sectionSlice, hfull, String.ofList_toList, String.empty_append]
  rfl

theorem run_sectionBlocks :
    Scan.run "M" "by a" {} (visits (.arr sectionBlocks.commands)) = (sectionScan, none) := by
  have hend (scan : Scan) : scan.step "M" "by a"
      ⟨bareNode "Command.end", [("kind", .str "Command.end")]⟩ =
        ({ scan with namespaces := scan.namespaces.dropLast }, none) := rfl
  have hsection (scan : Scan) : scan.step "M" "by a"
      ⟨bareNode "Command.section", [("kind", .str "Command.section")]⟩ = (scan, none) := rfl
  have hdefinition : Scan.step "M" "by a" { printed := "  [NS] Entered: A\n" } sectionVisit =
      (sectionScan, none) := by
    rw [Scan.step, Scan.enter_of_not_opens (by decide)]
    simp only [Scan.leave_of_not_closes (show sectionVisit.closes = false by decide), record_sectionVisit]
  have hopening : Scan.step "M" "by a" {} ⟨wordNode "Command.namespace" "A",
      [("kind", .str "Command.namespace"), ("rawVal", .str "A")]⟩ =
        ({ namespaces := ["A"], printed := "  [NS] Entered: A\n" }, none) := rfl
  have hvisits : visits (.arr sectionBlocks.commands) =
      [⟨wordNode "Command.namespace" "A", [("kind", .str "Command.namespace"), ("rawVal", .str "A")]⟩,
        ⟨bareNode "Command.section", [("kind", .str "Command.section")]⟩,
        ⟨bareNode "Command.end", [("kind", .str "Command.end")]⟩, sectionVisit,
        ⟨bareNode "Command.end", [("kind", .str "Command.end")]⟩] := rfl
  simp only [hvisits, Scan.run, hopening, hsection, hend, hdefinition, List.dropLast_singleton]
  rfl

theorem process_sectionProject :
    process sectionProject (.str "t") (.str "p") (.str "M.ast.json") = .scanned sectionScan none := by
  have hsource : source? sectionProject (.str "t") (.str "p") "p/.jixia/M.ast.json" =
      .ok (some "by a") := rfl
  rw [process_of_source treeFile_sectionProject read_sectionText hsource, run_sectionBlocks]

theorem recorded_names_of_sectionProject :
    treeFile sectionProject (.str "p") (.str "M.ast.json") =
        .ok ("p/.jixia/M.ast.json", "M", sectionText) ∧
      syntaxTree sectionText = .ok (.arr sectionBlocks.commands) ∧
      sectionBlocks.WellFormed ∧
      process sectionProject (.str "t") (.str "p") (.str "M.ast.json") = .scanned sectionScan none ∧
      ∃ records : List Record, sectionScan.written = String.join (records.map (·.line "M")) ∧
        (records.map Record.site).Sublist sectionBlocks.sites ∧
        ∀ record ∈ records, record.fullName = qualified (opened record.place.scopes) record.name ↔
          qualified (kept record.place.scopes) record.name =
              qualified (opened record.place.scopes) record.name ∧
            MarksCutWell (kept record.place.scopes ++ [record.name]) := by
  refine ⟨treeFile_sectionProject, read_sectionText, sectionBlocks_wellFormed, process_sectionProject, ?_⟩
  obtain ⟨records, hwritten, hsites, hrecords⟩ := recorded_name_qualified_iff treeFile_sectionProject
    read_sectionText sectionBlocks_wellFormed process_sectionProject
  exact ⟨records, hwritten, hsites, fun record hrecord => (hrecords record hrecord).2.1⟩

/-- The end of a section takes away the name of the namespace around it. -/
theorem section_end_takes_namespace :
    sectionBlocks.WellFormed ∧
      syntaxTree sectionText = .ok (.arr sectionBlocks.commands) ∧
      sectionBlocks.places.map (fun place => opened place.scopes) = [["A"]] ∧
      qualified ["A"] "x" = "A.x" ∧
      ∃ scan, process sectionProject (.str "t") (.str "p") (.str "M.ast.json") = .scanned scan none ∧
        scan.written = Records.recordLine (.str "M", .str "x") (.str "by a") :=
  ⟨sectionBlocks_wellFormed, read_sectionText, rfl, rfl, sectionScan, process_sectionProject, rfl⟩

end ProofDump.Ast
