import ProofDump.Json.Printer
import ProofDump.Theorem.Extract
import ProofDump.Value.Writable

/-!
# Export of theorems

Every theorem of a module becomes a line, with the roots of its proof and the steps below them. The
operators of the exported theorems are counted in a table that is shared by all modules of a session;
the counts of the lines before a fault stay.
-/

namespace ProofDump.Theorem

/-- Goals joined to a text. -/
def goalText (goals : Value) : Except Fault Value := .str <$> goals.joinWith "\n\n"

/-- The goals that a tactic leaves, as text. -/
def leftText (after : Value) : Except Fault Value := do
  if (← after.loadedLength) = 0 then return .str "no goals" else goalText after

/-- The fields of an exported tactic. -/
def tacticFields (tactic : Tactic) : Except Fault Fields := do
  let before ← goalText tactic.before
  let after ← leftText tactic.after
  return [("tactic", tactic.pp), ("tactic_before", before), ("tactic_after", after),
    ("tactic_start", tactic.range.start.written), ("tactic_stop", tactic.range.stop.written)]

/-- An exported tactic. -/
def tacticData (tactic : Tactic) : Except Fault Value := .obj <$> tacticFields tactic

/-- An exported root with its steps. -/
def rootData (root : Root) : Except Fault Value := do
  match root.children, root.step with
  | some children, some step =>
    let steps ← children.mapM tacticData
    return .obj ((← tacticFields step) ++ [("tactics", .arr steps)])
  | none, _ => throw (.notIterable Value.null.kind)
  | _, none => throw (.noAttribute Value.null.kind "before")

/-- What is written of a root and its steps as it is. -/
def rootParts (root : Root) : List Value :=
  (root.step.toList ++ root.children.getD []).flatMap Tactic.shownParts

/-- What a proof leaves: its goals, or the words for none. -/
def leftGoals (after : Value) : Except Fault Value := do
  if after.isNull then return .str "no goals"
  if (← after.loadedLength) = 0 then return .str "no goals"
  return after

/-- The fields of the exported record of a theorem, with what its proof leaves, the record of its own root and
those of the other roots. -/
def dataFields (module : String) (entry : Theorem) (after : Value) (own : Option Value)
    (roots : List Value) : Fields :=
  [("module", .str module), ("theorem", .str entry.name), ("teorem_signature:", entry.signature),
    ("theorem_operator", .str entry.operator), ("theorem_proof", .str entry.proof),
    ("theorem_proofType", .str entry.proofType.word), ("tactic_before:", entry.before),
    ("tactic_after", after), ("start", entry.proofRange.start.written),
    ("stop", entry.proofRange.stop.written)] ++
  own.toList.map (("tactics", ·)) ++ (if roots.isEmpty then [] else [("ref_tactics", .arr roots)])

/-- The exported record of a theorem. -/
def data (module : String) (entry : Theorem) : Except Fault Value := do
  let roots ← entry.roots.mapM rootData
  let after ← leftGoals entry.after
  let own ← entry.proofRoot.mapM rootData
  Value.checkAllWritable (entry.signature :: entry.before :: after :: (entry.proofRange.numbers ++
    (entry.proofRoot.toList ++ entry.roots).flatMap rootParts))
  return .obj (dataFields module entry after own roots)

/-- A theorem as reports would show it; the type it asks for is no part of a theorem. -/
def shown (_ : Theorem) : Except Fault String := .error (.noAttribute "Theorem" "type")

/-! ### Sessions -/

/-- How often each operator was exported. A session may start from other entries, which stay. -/
abbrev Counts := List (Value × Value)

/-- Count an operator once more, or for the first time after all others. -/
def Counts.add (counts : Counts) (operator : String) : Except Fault Counts :=
  match counts with
  | [] => .ok [(.str operator, .int 1)]
  | (key, count) :: rest => do
    if key.same (.str operator) then return (key, ← count.plus 1) :: rest
    else return (key, count) :: (← Counts.add rest operator)

/-- What exporting a module came to. -/
structure Exported where
  /-- The lines, or the fault that ended the export. -/
  lines : Except Fault (List String)
  counts : Counts
  printed : String

/-- Export theorems one after the other, after the lines already there. -/
def exportAll (module : String) (lines : List String) (counts : Counts) :
    List Theorem → Except Fault (List String) × Counts
  | [] => (.ok lines, counts)
  | entry :: rest =>
    match data module entry with
    | .error fault => (.error fault, counts)
    | .ok record =>
      match Counts.add counts entry.operator with
      | .error fault => (.error fault, counts)
      | .ok counts => exportAll module (lines ++ [Json.line record]) counts rest

/-- Export the theorems of a module. -/
def exportModule (files : Option FileTree) (root : String) (dumps : Dumps) (counts : Counts)
    (module : Value) : Exported :=
  let harvest := ofModule files root dumps module
  match harvest.fault with
  | some fault => ⟨.error fault, counts, harvest.printed⟩
  | none =>
    match module.joinRaw "." with
    | .error fault => ⟨.error fault, counts, harvest.printed⟩
    | .ok name =>
      let (lines, counts) := exportAll name [] counts harvest.theorems
      ⟨lines, counts, harvest.printed⟩

/-- Export modules one after the other with one table of counts. -/
def exportSession (files : Option FileTree) (root : String) (dumps : Dumps) (counts : Counts) :
    List Value → List Exported
  | [] => []
  | module :: rest =>
    let exported := exportModule files root dumps counts module
    exported :: exportSession files root dumps exported.counts rest

end ProofDump.Theorem
