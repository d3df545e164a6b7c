import ProofDump.Dump
import ProofDump.InfoTree.Tactics
import ProofDump.InfoTree.Terms
import ProofDump.Theorem.Source

/-!
# Theorems with their proofs

A theorem declaration is paired with the roots inside its range. The text of its value starts with an
operator and is a tactic proof when the word after the operator is `by`. A tactic proof takes the first
of its roots as its own, and its state from it. Otherwise the state is the type of the term that stands
for the theorem in its range, found by trying the name from its longest suffix to its shortest, then
the name below the root, then the last part between guillemets. A term proof without a state is
dropped, and so is a declaration without an operator; both are reported.
-/

namespace ProofDump

/-- How a proof is given. -/
inductive ProofType where
  | term
  | tactic
  deriving DecidableEq, Repr

/-- The word for how a proof is given. -/
def ProofType.word : ProofType → String
  | term => "Term"
  | tactic => "Tactic"

/-- A theorem with its proof. -/
structure Theorem where
  range : FileRange
  name : String
  signature : Value
  signatureRange : FileRange
  operator : String
  proof : String
  proofRange : FileRange
  proofType : ProofType
  /-- The root of a tactic proof. -/
  proofRoot : Option Root
  /-- The other roots within the theorem. -/
  roots : List Root
  /-- The goals, or the type, that the proof starts from. -/
  before : Value
  /-- The goals that the proof leaves. -/
  after : Value

namespace Theorem

/-! ### Parts of a statement -/

/-- The words that a value may start with. -/
def operators : List String := [":=", "|", "where"]

/-- The rest of a statement after its operator, which is dropped together with one more character. -/
def afterOperator (operator : String) (statement : List Char) : List Char :=
  Text.stripLeft ((Text.stripRight statement).drop (operator.length + 1))

/-- The exported proof: the rest of a statement without as many characters as the operator has. -/
def proofText (operator : String) (rest : List Char) : List Char :=
  Text.stripLeft (rest.drop operator.length)

/-- Whether the rest of a statement is a tactic proof. -/
def startsByTactic (rest : List Char) : Bool :=
  (Text.words rest).head? = some "by".toList

/-! ### The term that stands for a theorem -/

/-- The dotted names made of the last parts of a name, longest first. -/
def suffixes : List String → List String
  | [] => []
  | part :: rest => ".".intercalate (part :: rest) :: suffixes rest

/-- A name, and the name with an at sign before it unless it has one. -/
def withAt (name : String) : List String :=
  if Text.startsWith ['@'] name.toList then [name] else [name, "@" ++ name]

/-- The texts that may stand for a theorem, in the order in which they are tried. -/
def candidates (name : String) : List String :=
  let parts := Text.splitAt '.' name
  let quoted := "«" ++ parts.getLast?.getD "" ++ "»"
  (suffixes parts).flatMap withAt ++
    ["_root_." ++ name, "@_root_." ++ name, quoted, "@" ++ quoted]

/-- The term that stands for a theorem in its range. -/
def standIn? (range : FileRange) (name : String) (terms : List Term) : Option Term :=
  (candidates name).findSome? fun candidate => findTerm range (.str candidate) terms

/-! ### Extraction -/

/-- Where theorems are extracted from: the files of a project, its root and the module. -/
structure Context where
  /-- The files, if they can be asked for. -/
  files : Option FileTree
  root : String
  module : Value
  lines : LineStarts
  roots : List Root
  terms : List Term

/-- A report about a theorem of a module. -/
def notice (context : Context) (text name : String) : String :=
  text ++ name ++ " " ++ context.module.reported ++ "\n"

/-- The text of a declaration's value; one that was not printed is read from the source. -/
def statementText (context : Context) (value : Value) (range : FileRange) :
    Except Fault Value := do
  if value.isNull then
    return .str (String.ofList (← sourceText context.files context.root context.module range))
  else return value

/-- Extract a theorem declaration: the theorem, unless it is dropped, and what is reported. -/
def extract (context : Context) (declaration : Value) :
    Except Fault (Option Theorem × String) := do
  let nameParts ← declaration.attr "name"
  let some name ← name? context.module nameParts | return (none, "")
  let range ← FileRange.ofValue context.lines (← (← declaration.attr "ref").attr "range")
  let roots ← rootsWithin range context.roots
  let signaturePart ← declaration.attr "signature"
  let signature ← signaturePart.attr "pp"
  let signatureRange ← FileRange.ofValue context.lines (← signaturePart.attr "range")
  let valuePart ← declaration.attr "value"
  let value ← valuePart.attr "pp"
  let proofRange ← FileRange.ofValue context.lines (← valuePart.attr "range")
  let statement ← statementText context value proofRange
  match ← word? statement 0 with
  | none =>
    return (none, notice context "xxxxx proofOperator None  is not valid, remove: " name)
  | some operator =>
    if !operators.contains operator then
      return (none, notice context
        ("xxxxx proofOperator " ++ operator ++ "  is not valid, remove: ") name)
    let rest := afterOperator operator (statement.text?.getD "").toList
    let proof := String.ofList (proofText operator rest)
    let entry (type : ProofType) (proofRoot : Option Root) (roots : List Root)
        (before after : Value) : Theorem :=
      { range, name, signature, signatureRange, operator, proof, proofRange
        proofType := type, proofRoot, roots, before, after }
    let byTactic := startsByTactic rest
    let type := if byTactic then ProofType.tactic else .term
    match byTactic, roots with
    | true, own@⟨some step, _⟩ :: others =>
      return (some (entry type (some own) others step.before step.after), "")
    | _, _ =>
      match standIn? range name context.terms with
      | some term => return (some (entry type none roots term.type .null), "")
      | none =>
        if byTactic then
          return (some (entry type none roots .null .null),
            notice context "xxxxx ERROR tactic_before is none on Tactic: " name)
        else if (← nameParts.loadedIndex 0).same (.str "_private") then return (none, "")
        else return (none, notice context "xxxxx tactic_before is none, remove: " name)

/-- What extracting the theorems of a module came to. -/
structure Harvest where
  theorems : List Theorem := []
  /-- The reports printed. -/
  printed : String := ""
  /-- The fault that ended the extraction, if one did. -/
  fault : Option Fault := none

/-- Extract one declaration if it is a theorem with a name. -/
def extractDeclaration (context : Context) (declaration : Value) :
    Except Fault (Option Theorem × String) := do
  if !(← declaration.attr "kind").same (.str "theorem") then return (none, "")
  if (← (← declaration.attr "name").loadedLength) = 0 then return (none, "")
  extract context declaration

/-- Extract the theorems among declarations, up to the first fault. -/
def extractAll (context : Context) (harvest : Harvest) : List Value → Harvest
  | [] => harvest
  | declaration :: rest =>
    match extractDeclaration context declaration with
    | .error fault => { harvest with fault := some fault }
    | .ok (found, printed) =>
      extractAll context
        { harvest with
          theorems := harvest.theorems ++ found.toList
          printed := harvest.printed ++ printed } rest

/-- The context of a module: its roots and terms, collected from its info trees. -/
def contextOf (files : Option FileTree) (root : String) (module : Value) (lines : LineStarts)
    (trees : Value) : Except Fault Context := do
  let forest ← InfoTree.forest trees
  let roots ← InfoTree.roots .outerFirst lines forest
  match InfoTree.terms lines forest with
  | (_, some fault) => throw fault
  | (terms, none) => return { files, root, module, lines, roots, terms }

/-- The theorems of a module; without declarations or info trees there are none. -/
def ofModule (files : Option FileTree) (root : String) (dumps : Dumps) (module : Value) : Harvest :=
  match dumps.get module with
  | .error fault => { fault := some fault }
  | .ok dump =>
    match dump.declarations, dump.trees with
    | some declarations, some trees =>
      match contextOf files root module dump.lineStarts trees with
      | .error fault => { fault := some fault }
      | .ok context =>
        match declarations.loadedItems with
        | .error fault => { fault := some fault }
        | .ok declarations => extractAll context {} declarations
    | _, _ => {}

/-! ### The split of a source text -/

/-- Tabs and line ends as blanks. -/
def blankLineEnds (text : List Char) : List Char :=
  text.map fun c => if c = '\t' ∨ c = '\n' ∨ c = '\r' then ' ' else c

/-- The ranges of the signature and the proof of a theorem between two offsets of a source: they meet
at the first assignment sign between blanks, whose blank on the left belongs to neither. -/
def signatureAndProof? (files : Option FileTree) (root : String) (module : Value)
    (lines : LineStarts) (span : Span) : Except Fault (Option (FileRange × FileRange)) := do
  let text ← sourceText files root module (← FileRange.ofSpan lines span)
  match Text.cutFirst? " := ".toList (blankLineEnds text) with
  | none => return none
  | some (before, _) =>
    let split ← span.start.plus (Text.byteLength before)
    let signature ← FileRange.ofSpan lines (some ⟨span.start, split⟩)
    let proof ← FileRange.ofSpan lines (some ⟨← split.plus 1, span.stop⟩)
    return some (signature, proof)

end Theorem

end ProofDump
