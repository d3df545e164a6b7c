import ProofDump.InfoTree.Basic
import ProofDump.Sorting
import ProofDump.Value.Report

/-!
# Tactics in info trees

A tactic node becomes a tactic with its range, its text and the goals before and after it. Below a
tactic node its steps are collected: tactics of one line that are not inside the step before them. The
outermost tactic nodes of a forest become roots, each with its steps.

The step before is threaded from sibling to sibling and from a node to those below it, but never back
up. A list of siblings ends at its first tactic node, whose root is then the last one of that list and
leaves it unsorted; otherwise the roots of a list are sorted by their ranges.
-/

namespace ProofDump

/-- A tactic: its range, its text, and the goals before and after it. -/
structure Tactic where
  range : FileRange
  pp : Value
  before : Value
  after : Value

/-- An outermost tactic with its steps. The tactic may be missing, and so may its list of steps. -/
structure Root where
  step : Option Tactic
  children : Option (List Tactic)

/-- How roots are made and ordered. -/
inductive RootRule where
  /-- A root must have a tactic; of equal starts the longer range comes first. -/
  | outerFirst
  /-- A root may lack its tactic; of equal starts the shorter range comes first. -/
  | innerFirst
  deriving DecidableEq, Repr

namespace InfoTree

/-- The tactic part of a node's information, if there is one. -/
def tacticPart? (info : Value) : Except Fault (Option Value) := info.presentAttr "tactic"

/-- The texts of goals. -/
def goalTexts (goals : Value) : Except Fault Value := do
  return .arr (← (← goals.loadedItems).mapM (·.attr "pp"))

/-- Whether the text of a tactic goes over several steps. -/
def isCompound (pp : Value) : Except Fault Bool := do
  if ← pp.hasText "\n" then return true else pp.hasText ";"

/-- The tactic of a node, unless it is inside the previous range, is the word `by`, or, where only
single steps are wanted, is compound. -/
def tactic? (lines : LineStarts) (ref part : Value) (single : Bool) (previous : Option FileRange) :
    Except Fault (Option Tactic) := do
  let pp ← ref.attr "pp"
  if single then
    if ← isCompound pp then return none
  let range ← FileRange.ofValue lines (← ref.attr "range")
  if previous.any (·.covers range) then return none
  if pp.same (.str "by") then return none
  let before ← goalTexts (← part.attr "before")
  let after ← goalTexts (← part.attr "after")
  return some ⟨range, pp, before, after⟩

/-- The single step that a node itself is, if it is one. -/
def step? (lines : LineStarts) (previous : Option FileRange) (info ref : Value) :
    Except Fault (Option Tactic) := do
  match ← tacticPart? info with
  | none => return none
  | some part => tactic? lines ref part true previous

/-- The range that later steps are compared with. -/
def nextRange (previous : Option FileRange) (step : Option Tactic) : Option FileRange :=
  match step with
  | some step => some step.range
  | none => previous

mutual

/-- The steps in a tree, and the range that the next sibling's steps are compared with. -/
def stepsIn (lines : LineStarts) (previous : Option FileRange) :
    InfoTree → Except Fault (List Tactic × Option FileRange)
  | other value => .error (.noAttribute value.kind "info")
  | node info ref children unlisted =>
    match step? lines previous info ref with
    | .error fault => .error fault
    | .ok step =>
      match unlisted.filter Value.present with
      | some value => .error (.notIterable value.loadedKind)
      | none =>
        match steps lines (nextRange previous step) children with
        | .error fault => .error fault
        | .ok below => .ok (step.toList ++ below, nextRange previous step)

/-- The steps in a list of trees. -/
def steps (lines : LineStarts) (previous : Option FileRange) :
    List InfoTree → Except Fault (List Tactic)
  | [] => .ok []
  | tree :: rest =>
    match stepsIn lines previous tree with
    | .error fault => .error fault
    | .ok (own, next) =>
      match steps lines next rest with
      | .error fault => .error fault
      | .ok others => .ok (own ++ others)

end

/-- The root of a tactic node. -/
def root (rule : RootRule) (lines : LineStarts) (ref part : Value) (children : List InfoTree)
    (unlisted : Option Value) : Except Fault Root := do
  let step ← tactic? lines ref part false none
  let below ← steps lines none (← allBelow children unlisted)
  match rule, step with
  | .outerFirst, none => throw (.noAttribute Value.null.kind "fileRange")
  | _, _ => return ⟨step, some below⟩

/-- The range by which a root is ordered. -/
def sortRange (root : Root) : Except Fault FileRange :=
  match root.step with
  | some step => .ok step.range
  | none => .error (.noAttribute Value.null.kind "range")

/-- Whether a range comes before another by a rule. -/
def RootRule.before : RootRule → FileRange → FileRange → Bool
  | .outerFirst => FileRange.outerBefore
  | .innerFirst => FileRange.innerBefore

/-- Roots in the order of their ranges. -/
def sortRoots (rule : RootRule) (roots : List Root) : Except Fault (List Root) := do
  let keyed ← roots.mapM fun root => return (← sortRange root, root)
  return (Sorting.sort (fun a b => RootRule.before rule a.1 b.1) keyed).map (·.2)

/-- The roots of a list of trees, after those found before them. -/
def rootsAfter (rule : RootRule) (lines : LineStarts) (found : List Root) :
    List InfoTree → Except Fault (List Root)
  | [] => sortRoots rule found
  | other value :: _ => .error (.noAttribute value.kind "info")
  | node info ref children unlisted :: rest =>
    match tacticPart? info with
    | .error fault => .error fault
    | .ok (some part) => (root rule lines ref part children unlisted).map (found ++ [·])
    | .ok none =>
      match unlisted.filter Value.present with
      | some value => .error (.notIterable value.loadedKind)
      | none =>
        match rootsAfter rule lines [] children with
        | .error fault => .error fault
        | .ok below => rootsAfter rule lines (found ++ below) rest

/-- The roots of a forest. -/
def roots (rule : RootRule) (lines : LineStarts) (trees : List InfoTree) :
    Except Fault (List Root) :=
  rootsAfter rule lines [] trees

end InfoTree

/-- The roots whose ranges lie within a range. -/
def rootsWithin (range : FileRange) (roots : List Root) : Except Fault (List Root) :=
  roots.filterM fun root => return range.covers (← InfoTree.sortRange root)

namespace Tactic

/-- What is written of a tactic as it is: its text and the numbers of its range. -/
def shownParts (tactic : Tactic) : List Value := tactic.pp :: tactic.range.numbers

/-- A tactic as reports show it, with the given text for its range. -/
def shownAt (range : String) (tactic : Tactic) : String :=
  "Tactic(range=" ++ range ++ ", pp=" ++ tactic.pp.shown ++ ", before=" ++ tactic.before.shown ++
    ", after=" ++ tactic.after.shown ++ ")"

end Tactic

/-- A root as reports show it, with the given text for the range of its tactic: with that range and the
text of the tactic, or with the tactic itself. -/
def Root.shownAt (range : String) (rule : RootRule) (root : Root) : Except Fault String :=
  match rule with
  | .outerFirst =>
    match root.step with
    | none => .error (.noAttribute Value.null.kind "fileRange")
    | some step =>
      let size := match root.children with
        | some children => toString children.length
        | none => "None"
      .ok ("tactic=" ++ range ++ ", " ++ step.pp.reported ++ ", children=" ++ size)
  | .innerFirst =>
    match root.children with
    | none => .error (.noLength Value.null.kind)
    | some children =>
      let step := match root.step with
        | some step => step.shownAt range
        | none => "None"
      .ok ("tactic=" ++ step ++ ", children=" ++ toString children.length)

end ProofDump
