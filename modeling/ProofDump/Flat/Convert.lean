import ProofDump.Flat.Basic
import ProofDump.InfoTree.Basic
import ProofDump.Value.Report

/-!
# Flat forms of loaded records

Names become dotted texts, kinds become texts, ranges become records of their two offsets, and the
rest is handed through. Parts are looked at in the order in which they are written, so the first
unfit one decides the fault. The two ways to take over offsets differ only where an offset is not an
integer.
-/

namespace ProofDump.Flat

/-- How the offsets of a range are taken over. -/
inductive Offsets where
  /-- As the integers they stand for. -/
  | integers
  /-- As they were loaded. -/
  | loaded
  deriving DecidableEq, Repr

/-- An offset of a range. -/
def Offsets.take (offsets : Offsets) (value : Value) : Except Fault Value :=
  match offsets with
  | integers => .int <$> value.toInteger
  | loaded => .ok value

/-! ### Parts -/

/-- A part of a record, handed through. -/
def leafOf (value : Value) (name : String) : Except Fault Form := .leaf <$> value.attr name

/-- A part of a record as text. -/
def textOf (value : Value) (name : String) : Except Fault Form := do
  return .text (← value.attr name).reported

/-- The form of a value, if it is not null. -/
def optional (convert : Value → Except Fault Form) (value : Value) : Except Fault Form :=
  if value.isNull then .ok .absent else convert value

/-- The forms of the members of a list. -/
def each (convert : Value → Except Fault Form) (value : Value) : Except Fault Form := do
  return .list (← (← value.loadedItems).mapM convert)

/-- The dotted text of a name. -/
def dotted (name : Value) : Except Fault String := do
  return ".".intercalate ((← name.loadedItems).map Value.reported)

/-- A name as dotted text. -/
def ident (name : Value) : Except Fault Form := .text <$> dotted name

/-- The dotted text of a part of a record that is a name. -/
def identOf (value : Value) (name : String) : Except Fault Form := do ident (← value.attr name)

/-- A part of a record that is a list of names. -/
def identsOf (value : Value) (name : String) : Except Fault Form := do
  each ident (← value.attr name)

/-- A range as a record of its offsets. -/
def range (offsets : Offsets) (value : Value) : Except Fault Form :=
  match value with
  | .arr [start, stop] => do
    let start ← offsets.take start
    let stop ← offsets.take stop
    return .record [("start", .leaf start), ("stop", .leaf stop)]
  | other => .error (.noAttribute other.kind "start")

/-- The range in a part of a record, if there is one. -/
def rangeOf (offsets : Offsets) (value : Value) (name : String) : Except Fault Form := do
  optional (range offsets) (← value.attr name)

/-! ### Modules and symbols -/

/-- The information about a module. -/
def moduleInfo (value : Value) : Except Fault Form := do
  let docstring ← leafOf value "docstring"
  let imports ← leafOf value "imports"
  return .record [("docstring", docstring), ("imports", imports)]

/-- A symbol. -/
def symbol (value : Value) : Except Fault Form := do
  let kind ← textOf value "kind"
  let name ← identOf value "name"
  let full ← leafOf value "type_full"
  let readable ← leafOf value "type_readable"
  let fallback ← leafOf value "type_fallback"
  let typeReferences ← identsOf value "type_references"
  let valueReferences ← optional (each ident) (← value.attr "value_references")
  let isProp ← leafOf value "is_prop"
  return .record [("kind", kind), ("name", name), ("type_full", full),
    ("type_readable", readable), ("type_fallback", fallback),
    ("type_references", typeReferences), ("value_references", valueReferences),
    ("is_prop", isProp)]

/-! ### Declarations -/

/-- The parts of a piece of source: whether it was written there, where, and its text. -/
def excerptParts (offsets : Offsets) (value : Value) :
    Except Fault (List (String × Form)) := do
  let written ← leafOf value "original"
  let range ← rangeOf offsets value "range"
  let pp ← leafOf value "pp"
  return [("original", written), ("range", range), ("pp", pp)]

/-- A piece of source. -/
def excerpt (offsets : Offsets) (value : Value) : Except Fault Form :=
  .record <$> excerptParts offsets value

/-- A piece of source of a named kind. -/
def kindedExcerpt (offsets : Offsets) (value : Value) : Except Fault Form := do
  let parts ← excerptParts offsets value
  let kind ← identOf value "kind"
  return .record (parts ++ [("kind", kind)])

/-- A parameter. The letters of its binder become the parts of a name. -/
def param (offsets : Offsets) (value : Value) : Except Fault Form := do
  let ref ← rangeOf offsets value "ref"
  let id ← rangeOf offsets value "id"
  let type ← rangeOf offsets value "type"
  let binder ← identOf value "binder_info"
  return .record [("ref", ref), ("id", id), ("type", type), ("binder_info", binder)]

/-- A member of a documentation comment, which is a text and whether it is one. -/
def docstringMember (docstring : Value) (place : Int) : Except Fault Form :=
  optional (fun docstring => .leaf <$> docstring.loadedIndex place) docstring

/-- The modifiers of a declaration. Nothing counts as noncomputable. -/
def modifiers (value : Value) : Except Fault Form := do
  let visibility ← textOf value "visibility"
  let computeKind ← textOf value "compute_kind"
  let recKind ← textOf value "rec_kind"
  let isUnsafe ← leafOf value "is_unsafe"
  let docstring ← value.attr "docstring"
  let text ← docstringMember docstring 0
  let present ← docstringMember docstring 1
  return .record [("visibility", visibility), ("compute_kind", computeKind),
    ("rec_kind", recKind), ("is_unsafe", isUnsafe), ("docstring", text),
    ("has_docstring", present), ("is_noncomputable", .leaf (.bool false))]

/-- A namespace that is open but for some names. -/
def openNamespace (value : Value) : Except Fault Form := do
  let opened ← identOf value "namespace"
  let hidden ← identsOf value "hiding"
  return .record [("namespace", opened), ("hiding", hidden)]

/-- A name that is open under another. -/
def openRename (value : Value) : Except Fault Form := do
  let name ← identOf value "name"
  let renamed ← identOf value "as_"
  return .record [("name", name), ("as_", renamed)]

/-- Something that is open. -/
def openDecl (value : Value) : Except Fault Form := do
  let simple ← optional openNamespace (← value.attr "simple")
  let rename ← optional openRename (← value.attr "rename")
  return .record [("simple", simple), ("rename", rename)]

/-- The scope of a declaration. -/
def scope (value : Value) : Except Fault Form := do
  let declared ← leafOf value "var_decls"
  let includes ← identsOf value "include_vars"
  let omits ← identsOf value "omit_vars"
  let current ← identOf value "curr_namespace"
  let opens ← each openDecl (← value.attr "open_decl")
  return .record [("var_decls", declared), ("include_vars", includes), ("omit_vars", omits),
    ("curr_namespace", current), ("open_decl", opens)]

/-- A declaration. -/
def declaration (offsets : Offsets) (value : Value) : Except Fault Form := do
  let kind ← textOf value "kind"
  let ref ← excerpt offsets (← value.attr "ref")
  let name ← identOf value "name"
  let signature ← excerpt offsets (← value.attr "signature")
  let modifiers ← modifiers (← value.attr "modifiers")
  let params ← each (param offsets) (← value.attr "params")
  let type ← optional (excerpt offsets) (← value.attr "type")
  let body ← optional (excerpt offsets) (← value.attr "value")
  let scope ← optional scope (← value.attr "scope_info")
  return .record [("kind", kind), ("ref", ref), ("name", name), ("signature", signature),
    ("modifiers", modifiers), ("params", params), ("type", type), ("value", body),
    ("scope_info", scope)]

/-! ### Info trees -/

/-- A variable of a context. -/
def variableForm (value : Value) : Except Fault Form := do
  let id ← identOf value "id"
  let name ← identOf value "name"
  let binder ← leafOf value "binder_info"
  let type ← leafOf value "type"
  let body ← leafOf value "value"
  let isProp ← leafOf value "is_prop"
  return .record [("id", id), ("name", name), ("binder_info", binder), ("type", type),
    ("value", body), ("is_prop", isProp)]

/-- A constant or a variable that a term consists of. -/
def special (value : Value) : Except Fault Form := do
  let const ← optional ident (← value.attr "const")
  let fvar ← optional ident (← value.attr "fvar")
  return .record [("const", const), ("fvar", fvar)]

/-- What is known of a term. -/
def term (value : Value) : Except Fault Form := do
  let context ← each variableForm (← value.attr "context")
  let type ← leafOf value "type"
  let expected ← leafOf value "expected_type"
  let body ← leafOf value "value"
  let special ← optional special (← value.attr "special")
  return .record [("context", context), ("type", type), ("expected_type", expected),
    ("value", body), ("special", special)]

/-- A goal. -/
def goal (value : Value) : Except Fault Form := do
  let tag ← identOf value "tag"
  let context ← each variableForm (← value.attr "context")
  let type ← leafOf value "type"
  let isProp ← leafOf value "is_prop"
  let pp ← leafOf value "pp"
  return .record [("tag", tag), ("context", context), ("type", type), ("is_prop", isProp),
    ("pp", pp)]

/-- What is known of a tactic. -/
def tactic (value : Value) : Except Fault Form := do
  let references ← identsOf value "references"
  let before ← each goal (← value.attr "before")
  let after ← each goal (← value.attr "after")
  return .record [("references", references), ("before", before), ("after", after)]

/-- The information of a node. -/
def info (offsets : Offsets) (value : Value) : Except Fault Form := do
  let term ← optional term (← value.attr "term")
  let tactic ← optional tactic (← value.attr "tactic")
  let expansion ← optional (fun expansion => do
    kindedExcerpt offsets (← expansion.attr "expanded")) (← value.attr "macro")
  let simple ← optional (fun simple => .ok (.text simple.reported)) (← value.attr "simple")
  return .record [("term", term), ("tactic", tactic), ("macro", expansion), ("simple", simple)]

mutual

/-- An info tree. -/
def tree (offsets : Offsets) : InfoTree → Except Fault Form
  | .node value ref children unlisted => do
    let info ← info offsets value
    let ref ← kindedExcerpt offsets ref
    match unlisted with
    | some value => throw (.notIterable value.loadedKind)
    | none =>
      let children ← trees offsets children
      return .record [("info", info), ("ref", ref), ("children", .list children)]
  | .other value => .error (.noAttribute value.kind "info")

/-- Info trees one after the other. -/
def trees (offsets : Offsets) : List InfoTree → Except Fault (List Form)
  | [] => .ok []
  | first :: rest => do
    let form ← tree offsets first
    let forms ← trees offsets rest
    return form :: forms

end

end ProofDump.Flat
