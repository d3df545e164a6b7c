import ProofDump.Ast.Clean
import ProofDump.Ast.Name
import ProofDump.Ast.Range
import ProofDump.FileTree
import ProofDump.Json.Reader
import ProofDump.Records.Table
import ProofDump.Text.Bytes
import ProofDump.Text.Lines
import ProofDump.Text.WordChar
import ProofDump.Value.Report

/-!
# Proof records from syntax trees

A syntax tree is visited in preorder. Nodes that open or end a namespace change the stack of open
namespaces; nodes that declare something become a record, once per source range, when their name is
known and is not that of the innermost namespace. The proof is the source of the node from its first
free-standing `by`, `:=` or `where` on, cleaned.
-/

namespace ProofDump.Ast

/-! ### Visited nodes -/

/-- A visited node: the whole value, which counts for its range, and the entries of the node in it. -/
structure Visit where
  whole : Value
  fields : Fields

mutual

/-- The nodes of a tree in preorder. -/
def visits : Value → List Visit
  | .arr items => visitItems items
  | .obj fields =>
    match visitWrapped (.obj fields) fields with
    | some visits => visits
    | none => ⟨.obj fields, fields⟩ :: visitParts fields
  | _ => []

/-- The nodes of a value that wraps its node; a wrapped value that is no table hides everything. -/
def visitWrapped (whole : Value) : List (String × Value) → Option (List Visit)
  | [] => none
  | (key, value) :: rest =>
    if key = "node" then
      match value with
      | .obj fields => some (⟨whole, fields⟩ :: visitParts fields)
      | _ => some []
    else visitWrapped whole rest

/-- The nodes of the members of a list. -/
def visitItems : List Value → List Visit
  | [] => []
  | item :: rest => visits item ++ visitItems rest

/-- The nodes in the entries of a node, its information apart. -/
def visitParts : List (String × Value) → List Visit
  | [] => []
  | (key, value) :: rest =>
    if key = "info" then visitParts rest else visits value ++ visitParts rest

end

/-! ### Kinds of nodes -/

/-- Letters of ASCII in lower case; kinds are only searched for lower-case words of ASCII. -/
def lower (text : List Char) : List Char := text.map Char.toLower

/-- The kind of a node as searched text. -/
def kindText (fields : Fields) : List Char :=
  let kind := (Fields.get? fields "kind").getD (.str "")
  let named := match kind with
    | .obj parts => (Fields.get? parts "name").getD kind
    | other => other
  lower named.reported.toList

/-- Words in the kind of a node that declares something. -/
def declaringWords : List String := ["theorem", "lemma", "def", "instance", "declaration"]

/-- Whether a kind contains a word. -/
def kindHas (fields : Fields) (word : String) : Bool :=
  Text.contains word.toList (kindText fields)

/-- Whether a node declares something. -/
def declares (fields : Fields) : Bool := declaringWords.any (kindHas fields)

/-! ### Names and proofs -/

/-- The full name of a declaration in the open namespaces: root markers are dropped. -/
def fullName (namespaces : List String) (name : String) : String :=
  let parts := (namespaces ++ [name]).filter (· ≠ "_root_")
  let joined := (".".intercalate parts).toList
  let inner := Text.replace "._root_.".toList ['.'] joined
  String.ofList (Text.replace "_root_.".toList [] inner)

/-- The words that start a proof. -/
def proofStarts : List String := ["by", ":=", "where"]

/-- Whether a word stands at the start of a text between word boundaries. -/
def standsFree (previous : Option Char) (text : List Char) (word : List Char) : Bool :=
  Text.isBoundary previous text.head? &&
    match Text.dropPrefix? word text with
    | some rest => Text.isBoundary word.getLast? rest.head?
    | none => false

/-- The text from the first free-standing start of a proof on; `previous` is the character before. -/
def proofFrom? (previous : Option Char) : List Char → Option (List Char)
  | [] => none
  | c :: rest =>
    if proofStarts.any fun word => standsFree previous (c :: rest) word.toList then some (c :: rest)
    else proofFrom? (some c) rest

/-- The proof in the source of a declaration, if there is one and something of it remains. -/
def proof? (source : List Char) : Option (List Char) :=
  match proofFrom? none source with
  | none => none
  | some text => if (clean text).isEmpty then none else some (clean text)

/-! ### Scanning -/

/-- What a scan has done so far. -/
structure Scan where
  /-- The open namespaces, outermost first. -/
  namespaces : List String := []
  /-- The ranges of the declarations seen. -/
  seen : List (Int × Int) := []
  /-- The records written. -/
  written : String := ""
  /-- The lines printed. -/
  printed : String := ""

/-- Open the namespace of a node that opens one. -/
def Scan.enter (scan : Scan) (visit : Visit) : Except Fault Scan := do
  if !kindHas visit.fields "namespace" then return scan
  let name ← nameOf (.obj visit.fields)
  if name = unknown then return scan
  let namespaces := scan.namespaces ++ [name]
  return { scan with
    namespaces
    printed := scan.printed ++ "  [NS] Entered: " ++ ".".intercalate namespaces ++ "\n" }

/-- Close the innermost namespace at a node that ends one. -/
def Scan.leave (scan : Scan) (visit : Visit) : Scan :=
  if kindHas visit.fields "command.end" then { scan with namespaces := scan.namespaces.dropLast } else scan

/-- Write the record of a node that declares something. -/
def Scan.record (module : String) (source : Content) (scan : Scan) (visit : Visit) :
    Except Fault Scan := do
  if !declares visit.fields then return scan
  match ← range? visit.whole with
  | none => return scan
  | some range =>
    if scan.seen.contains range then return scan
    let name ← nameOf (.obj visit.fields)
    if name = unknown ∨ scan.namespaces.getLast? = some name then return scan
    let scan := { scan with seen := scan.seen ++ [range] }
    match proof? (source.stretch range.1 range.2) with
    | none => return scan
    | some proof =>
      let key := (.str module, .str (fullName scan.namespaces name))
      return { scan with
        written := scan.written ++ Records.recordLine key (.str (String.ofList proof)) }

/-- Scan one node: what it did, and the fault that ends the scan, if one does. -/
def Scan.step (module : String) (source : Content) (scan : Scan) (visit : Visit) :
    Scan × Option Fault :=
  match scan.enter visit with
  | .error fault => (scan, some fault)
  | .ok entered =>
    let left := entered.leave visit
    match left.record module source visit with
    | .error fault => (left, some fault)
    | .ok next => (next, none)

/-- Scan nodes one after the other until a fault. -/
def Scan.run (module : String) (source : Content) (scan : Scan) :
    List Visit → Scan × Option Fault
  | [] => (scan, none)
  | visit :: rest =>
    match scan.step module source visit with
    | (next, some fault) => (next, some fault)
    | (next, none) => next.run module source rest

/-! ### Files -/

/-- The directories in which the source of a module is looked for, in order. -/
def sourceRoots (toolchain root : String) : List String :=
  [joinPathText (joinPathText (joinPathText root ".lake") "packages") "mathlib", root,
   joinPathText (joinPathText toolchain "src") "lean"]

/-- Where the source of the module that a syntax tree file is named for may lie. -/
def candidates (toolchain root name : String) : List String :=
  let base := Text.replace ".ast.json".toList [] name.toList
  let parts := (Text.split ['.'] base).map String.ofList
  (sourceRoots toolchain root).map fun start => parts.foldl joinPathText start ++ ".lean"

/-- The source file of the module that a syntax tree file is named for. -/
def sourceFile? (tree : FileTree) (toolchain root name : Value) : Except Fault (Option String) :=
  match name with
  | .str name => do
    let root ← root.pathText
    let toolchain ← toolchain.pathText
    return (candidates toolchain root name).find? tree.holds
  | other => .error (.noAttribute other.kind "replace")

/-- What processing a syntax tree file came to. -/
inductive Outcome where
  /-- There was no readable tree or no source. -/
  | nothing
  /-- The tree was scanned, to the end unless a fault is given. -/
  | scanned (scan : Scan) (fault : Option Fault)
  /-- A file could not be read. -/
  | failed (fault : Fault)

/-- The module that a syntax tree file is named for: its name without the last two suffixes. -/
def moduleOf (name : String) : Except Fault String := do
  return (← (← (Path.ofText name).withSuffix "").withSuffix "").text

/-- The path of a syntax tree file of a project, the module it is named for, and its content. -/
def treeFile (tree : FileTree) (root name : Value) : Except Fault (String × String × Content) := do
  let root ← root.pathText
  let name ← name.pathText
  let path := joinPathText (joinPathText root ".jixia") name
  return (path, ← moduleOf name, ← tree.contentOf path)

/-- The syntax tree that a file holds. -/
def syntaxTree (content : Content) : Except Fault Value := do
  Json.read (String.ofList (Text.fileText (← content.text)))

/-- The content of the source file that a syntax tree file is named for. -/
def source? (tree : FileTree) (toolchain root : Value) (path : String) :
    Except Fault (Option Content) := do
  let file := ((Text.splitAt '/' path).getLast?).getD ""
  match ← sourceFile? tree toolchain root (.str file) with
  | none => return none
  | some source => return some (← tree.contentOf source)

/-- Process the syntax tree file of a project. -/
def process (tree : FileTree) (toolchain root name : Value) : Outcome :=
  match treeFile tree root name with
  | .error fault => .failed fault
  | .ok (path, module, content) =>
    match syntaxTree content with
    | .error _ => .nothing
    | .ok ast =>
      match source? tree toolchain root path with
      | .error fault => .failed fault
      | .ok none => .nothing
      | .ok (some source) =>
        let (scan, fault) := Scan.run module source {} (visits ast)
        .scanned scan fault

end ProofDump.Ast
