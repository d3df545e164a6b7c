import ProofDump.FileTree
import ProofDump.Json.Printer
import ProofDump.Steps.Extract
import ProofDump.Value.Writable

/-!
# Export of proof steps

Every theorem of a module becomes a line with the steps of its proof. A proof that starts with `by`, or
that was not printed, has the steps of its last root; the steps of all roots of another proof are
listed beside it. A theorem without steps gets a single one that stands for the whole proof. Where the
proof was not printed, the text of the first root takes its place; the newer edition falls back on the
state before the proof.
-/

namespace ProofDump.Steps

/-- Goals joined to a text. -/
def goalText (goals : Value) : Except Fault Value := .str <$> goals.joinWith "\n"

/-- A step with its state before and after. -/
def stepData (step : Tactic) : Except Fault Value := do
  let before ← goalText step.before
  let after ← if (← step.after.loadedLength) = 0 then pure (.str "no goals")
    else goalText step.after
  return .obj [("tactic", step.pp), ("tactic_before", before), ("tactic_after", after),
    ("tactic_start", step.range.start.written), ("tactic_stop", step.range.stop.written)]

/-- The exported steps of a root. -/
def rootSteps (root : Root) : Except Fault (List Value) :=
  match root.children with
  | some children => children.mapM stepData
  | none => .error (.notIterable Value.null.kind)

/-- Blanks after which a proof that starts with `by` goes on. -/
def isGap (c : Char) : Bool := c = ' ' || c = '\t' || c = '\r' || c = '\n'

/-- Whether a proof is given by tactics: it was not printed, or starts with `by` and a blank. -/
def byTactics (proof : Value) : Except Fault Bool :=
  match proof with
  | .null => .ok true
  | .str s =>
    match Text.dropPrefix? "by".toList s.toList with
    | none => .ok false
    | some [] => .error (.outOfBounds "string")
    | some (c :: _) => .ok (isGap c)
  | other => .error (.noAttribute other.kind "startswith")

/-- The steps and the proof gathered from the roots of a theorem. -/
structure Gathered where
  /-- The steps of a proof by tactics. -/
  own : List Value := []
  /-- The steps of the roots of another proof. -/
  beside : List Value := []
  proof : Value

/-- Add the steps of a root. -/
def Gathered.add (tactical : Bool) (gathered : Gathered) (root : Root) : Except Fault Gathered := do
  let steps ← rootSteps root
  if tactical then
    let proof ← if gathered.proof.isNull then
        match root.step with
        | some step => pure step.pp
        | none => throw (.noAttribute Value.null.kind "pp")
      else pure gathered.proof
    return { gathered with own := steps, proof }
  else return { gathered with beside := gathered.beside ++ [.arr steps] }

/-- A report about a theorem of a module. -/
def proofNotice (name module : String) : String :=
  "xxxxx proof is none: " ++ name ++ " " ++ module ++ "\n"

/-- The proof after the fallback of an edition, and what is printed about it. -/
def settleProof (edition : Edition) (module : String) (entry : Entry) (proof : Value) :
    Value × String :=
  if !proof.isNull then (proof, "")
  else match edition with
    | .older => (proof, proofNotice entry.name module)
    | .newer =>
      (entry.before,
        "xxxxx assign theorem_proof: " ++ entry.name ++ " " ++ module ++ " tactic_before: " ++
          entry.before.reported ++ "\n" ++
          (if entry.before.isNull then proofNotice entry.name module else ""))

/-- The line of a theorem. -/
structure Line where
  record : Value
  /-- The loaded values and the numbers that the record shows. -/
  shown : List Value
  /-- What is printed about the theorem. -/
  printed : String

/-- What a line shows of the steps of roots. -/
def shownSteps (tactical : Bool) (roots : List Root) : List Value :=
  let roots := if tactical then roots.getLast?.toList else roots
  roots.flatMap fun root => (root.children.getD []).flatMap Tactic.shownParts

/-- The line of a theorem. -/
def line (edition : Edition) (module : String) (entry : Entry) : Except Fault Line := do
  let tactical ← byTactics entry.proof
  let gathered ← entry.roots.foldlM (Gathered.add tactical) { proof := entry.proof }
  let (proof, printed) := settleProof edition module entry gathered.proof
  let start := entry.proofRange.start.written
  let stop := entry.proofRange.stop.written
  let whole := .obj [("tactic", proof), ("tactic_before", entry.before),
    ("tactic_after", .str "no goals"), ("tactic_start", start), ("tactic_stop", stop)]
  let steps := if gathered.own.isEmpty then [whole] else gathered.own
  let record := .obj ([("module", .str module), ("theorem", .str entry.name),
    ("theorem_proof", proof), ("start", start), ("stop", stop), ("tactics", .arr steps)] ++
    (if gathered.beside.isEmpty then [] else [("ref_tactics", .arr gathered.beside)]))
  let before := if gathered.own.isEmpty then [entry.before] else []
  return ⟨record, proof :: entry.proofRange.numbers ++ before ++ shownSteps tactical entry.roots,
    printed⟩

/-- What exporting a module came to. -/
structure Exported where
  written : String := ""
  printed : String := ""
  /-- The fault that ended the export, if one did. -/
  fault : Option Fault := none

/-- Export entries one after the other, up to the first fault. -/
def exportAll (edition : Edition) (module : String) (done : Exported) : List Entry → Exported
  | [] => done
  | entry :: rest =>
    match line edition module entry with
    | .error fault => { done with fault := some fault }
    | .ok line =>
      let done := { done with printed := done.printed ++ line.printed }
      match Value.checkAllWritable line.shown with
      | .error fault => { done with fault := some fault }
      | .ok () =>
        exportAll edition module
          { done with written := done.written ++ Json.line line.record ++ "\n" } rest

/-- Export the theorems of a module, after what was done before. -/
def exportModule (edition : Edition) (dumps : Dumps) (done : Exported) (module : Value) :
    Exported :=
  let harvest := ofModule edition dumps module
  let done := { done with printed := done.printed ++ harvest.printed }
  match harvest.entries with
  | .error fault => { done with fault := some fault }
  | .ok entries =>
    match module.joinRaw "." with
    | .error fault => { done with fault := some fault }
    | .ok name => exportAll edition name done entries

/-- The name of the module in a source file below a directory: its names with dots between them. -/
def moduleName (names : List String) : Except Fault String := do
  let path ← (Path.relative names).withSuffix ""
  return String.ofList (Text.replace ['/'] ['.'] path.text.toList)

/-- Export the modules of the source files that a search comes to, one after the other up to the first
fault, if their names start with a given text. A name is cut into parts at commas. -/
def exportFound (edition : Edition) (dumps : Dumps) (start : Option String) (done : Exported) :
    List (Except Fault (List String)) → Exported
  | [] => done
  | found :: rest =>
    match found.bind moduleName with
    | .error fault => { done with fault := some fault }
    | .ok name =>
      if start.all fun text => Text.startsWith text.toList name.toList then
        let next := exportModule edition dumps done (Value.texts (Text.splitAt ',' name))
        match next.fault with
        | some _ => next
        | none => exportFound edition dumps start next rest
      else exportFound edition dumps start done rest

/-- Export the modules of the source files below a directory. -/
def exportDirectory (edition : Edition) (dumps : Dumps) (tree : FileTree) (directory : String)
    (start : Option String) : Exported :=
  exportFound edition dumps start {} (tree.sourcesBelow (.ofText directory))

end ProofDump.Steps
