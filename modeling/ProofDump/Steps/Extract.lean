import ProofDump.Dump
import ProofDump.InfoTree.Tactics
import ProofDump.InfoTree.Terms

/-!
# Theorems with their steps

A theorem declaration that is not private is paired with the roots inside its range and with the type
of the term that stands for it there. There are two editions. The older looks for a term with the full
name. The newer tries the suffixes of the name from the longest to the last part, and then that part
with an at sign; it also reports the terms of one lemma of one module.
-/

namespace ProofDump.Steps

/-- Which edition of the export is made. -/
inductive Edition where
  | older
  | newer
  deriving DecidableEq, Repr

/-- A theorem with its roots. -/
structure Entry where
  range : FileRange
  name : String
  type : Value
  signature : Value
  signatureRange : FileRange
  proof : Value
  proofRange : FileRange
  /-- The type of the term that stands for the theorem, null if there is none. -/
  before : Value
  roots : List Root

/-- An entry as reports show it. -/
def Entry.shown (entry : Entry) : String :=
  "range=" ++ entry.range.shown "Range" ++ ", name=" ++ entry.name ++ ", type=" ++
    entry.type.reported ++ ", tactics: " ++ toString entry.roots.length

/-! ### Reported terms -/

/-- The module whose terms are reported. -/
def reportedModule : Value := .arr [.str "Mathlib.Data.Finsupp.Basic"]

/-- The text by which a reported term is known. -/
def reportedText : String := "subtypeDomain_eq_iff"

/-- What the newer edition prints about a term of the reported module. -/
def termNotice (term : Term) : Except Fault String := do
  if ← term.ident.hasText reportedText then
    return "xxxxxx node.info.term.value: " ++ term.ident.reported ++ ", " ++
      term.range.shown "Range" ++ ", " ++ (if term.type.isNull then "False" else "True") ++ "\n"
  else return ""

/-- What is printed about terms one after the other, up to a fault. -/
def termNotices (printed : String) : List Term → String × Option Fault
  | [] => (printed, none)
  | term :: rest =>
    match termNotice term with
    | .error fault => (printed, some fault)
    | .ok line => termNotices (printed ++ line) rest

/-- The terms of a forest, what is printed about them, and the fault that ends the walk. -/
def terms (edition : Edition) (module : Value) (lines : LineStarts) (trees : List InfoTree) :
    List Term × String × Option Fault :=
  let (found, fault) := InfoTree.terms lines trees
  match edition with
  | .older => (found, "", fault)
  | .newer =>
    if module.same reportedModule then
      let (printed, early) := termNotices "" found
      (found, printed, early <|> fault)
    else (found, "", fault)

/-! ### Entries -/

/-- Whether a list of names that is down to one part is tried once more with an at sign. -/
def lacksAt (names : Value) : Except Fault Bool := do
  if (← names.loadedLength) ≠ 1 then return false
  return !(← (← names.loadedIndex 0).loadedIndex 0).same (.str "@")

/-- The type of the first term that a name stands for when its first parts are dropped one by one, and
at last an at sign is put before the last part. `fuel` bounds the number of tries. -/
def typeBySuffix (range : FileRange) (terms : List Term) :
    Nat → Value → Except Fault Value
  | 0, _ => .ok .null
  | fuel + 1, names => do
    if (← names.loadedLength) = 0 then return .null
    let found := findTerm range (.str (← names.joinWith ".")) terms
    let next ← if ← lacksAt names then
        match ← names.loadedIndex 0 with
        | .str last => pure (.arr [.str ("@" ++ last)])
        | other => throw (.notAddable "str" other.kind)
      else match names with
        | .arr parts => pure (.arr parts.tail)
        | other => throw (.noAttribute other.kind "pop")
    match found with
    | some term => return term.type
    | none => typeBySuffix range terms fuel next

/-- The type of the term that stands for a theorem, null if there is none. -/
def stateBefore (edition : Edition) (range : FileRange) (name : String) (names : Value)
    (terms : List Term) : Except Fault Value :=
  match edition with
  | .older =>
    match findTerm range (.str name) terms with
    | some term => .ok term.type
    | none => .ok .null
  | .newer => do typeBySuffix range terms ((← names.loadedLength) + 2) names

/-- The entry of a declaration, if it is a theorem that is not private. -/
def entryOf? (edition : Edition) (lines : LineStarts) (roots : List Root) (terms : List Term)
    (declaration : Value) : Except Fault (Option Entry) := do
  if !(← declaration.attr "kind").same (.str "theorem") then return none
  let names ← declaration.attr "name"
  if (← names.loadedIndex 0).same (.str "_private") then return none
  let name ← names.joinWith "."
  let range ← FileRange.ofValue lines (← (← declaration.attr "ref").attr "range")
  let roots ← rootsWithin range roots
  let signaturePart ← declaration.attr "signature"
  let signature ← signaturePart.attr "pp"
  let signatureRange ← FileRange.ofValue lines (← signaturePart.attr "range")
  let valuePart ← declaration.attr "value"
  let proof ← valuePart.attr "pp"
  let proofRange ← FileRange.ofValue lines (← valuePart.attr "range")
  let before ← stateBefore edition range name names terms
  let type ← (← declaration.attr "type").attr "pp"
  return some { range, name, type, signature, signatureRange, proof, proofRange, before, roots }

/-- What extracting the theorems of a module came to: the entries or a fault, and what is printed. -/
structure Harvest where
  entries : Except Fault (List Entry)
  printed : String := ""

/-- The theorems among declarations, with the roots and terms of info trees. -/
def harvest (edition : Edition) (module : Value) (lines : LineStarts) (declarations trees : Value) :
    Harvest :=
  match InfoTree.forest trees with
  | .error fault => { entries := .error fault }
  | .ok forest =>
    match InfoTree.roots .innerFirst lines forest with
    | .error fault => { entries := .error fault }
    | .ok roots =>
      match terms edition module lines forest with
      | (_, printed, some fault) => ⟨.error fault, printed⟩
      | (terms, printed, none) =>
        ⟨do (← declarations.loadedItems).filterMapM (entryOf? edition lines roots terms), printed⟩

/-- The theorems of a module; without declarations or info trees there are none. -/
def ofModule (edition : Edition) (dumps : Dumps) (module : Value) : Harvest :=
  match dumps.get module with
  | .error fault => { entries := .error fault }
  | .ok dump =>
    match dump.declarations, dump.trees with
    | some declarations, some trees => harvest edition module dump.lineStarts declarations trees
    | _, _ => { entries := .ok [] }

end ProofDump.Steps
