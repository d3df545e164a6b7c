import ProofDump.Dump
import ProofDump.FileTree
import ProofDump.Flat.Convert
import ProofDump.Json.Printer

/-!
# Flat copies of dumps

The flat copy of a module is four files: its information, its symbols, its declarations and its info
trees, in that order. All of a part is converted before its file is begun, and the first fault, be it of
a part or of its file, ends the copy with a report, so the files that are there are a beginning of the
four.
-/

namespace ProofDump.Flat

/-- A form as it is written on a line. -/
def line (form : Form) : Except Fault String := Json.plainLine <$> form.written

/-- The text of a file, and the fault that cut it off, if one did. -/
structure Page where
  text : String
  fault : Option Fault := none

namespace Page

/-- The page with a single form. -/
def single (form : Form) : Page :=
  match line form with
  | .ok text => ⟨text, none⟩
  | .error fault => ⟨"", some fault⟩

/-- The page with a form on each line, after the text already there. -/
def linesFrom (text : String) : List Form → Page
  | [] => ⟨text, none⟩
  | form :: rest =>
    match line form with
    | .ok line => linesFrom (text ++ line ++ "\n") rest
    | .error fault => ⟨text, some fault⟩

/-- The page with a form on each line. -/
def lines (forms : List Form) : Page := linesFrom "" forms

end Page

/-- The members of a part of a dump; an absent part has none to walk through. -/
def members (part : Option Value) : Except Fault (List Value) := (part.getD .null).loadedItems

/-- The pages of a copy, each under the word for its part. -/
def pages (dump : Dump) (info : Value) : List (String × Except Fault Page) :=
  [("module", Page.single <$> moduleInfo info),
   ("symbol", do return Page.lines (← (← members dump.symbols).mapM symbol)),
   ("decl", do return Page.lines (← (← members dump.declarations).mapM (declaration .integers))),
   ("elab", do return Page.lines (← trees .integers (← InfoTree.forest (dump.trees.getD .null))))]

/-- Write a page of a module to a directory. -/
def writePage (tree : FileTree) (directory : String) (module : Value) (part text : String) :
    Except Fault FileTree := do
  let name ← module.joinRaw "."
  tree.write (joinPathText directory (name ++ "." ++ part ++ ".json")) text

/-- Write the pages of a module to a directory, up to the first fault, and that fault. -/
def writePages (directory : String) (module : Value) (tree : FileTree) :
    List (String × Except Fault Page) → FileTree × Option Fault
  | [] => (tree, none)
  | (_, .error fault) :: _ => (tree, some fault)
  | (part, .ok page) :: rest =>
    match writePage tree directory module part page.text with
    | .error fault => (tree, some fault)
    | .ok written =>
      match page.fault with
      | some fault => (written, some fault)
      | none => writePages directory module written rest

/-- The report about a module whose copy was ended by a fault. -/
def failureReport (module : Value) (fault : Fault) : String :=
  "xxxx Fail to process module: " ++ module.reported ++ ", " ++ fault.message ++ "\n"

/-- Write the flat copy of a module to a directory: the files then, and what is reported. A module
without information has no copy. -/
def copyModule (dumps : Dumps) (tree : FileTree) (directory : String) (module : Value) :
    Except Fault (FileTree × String) := do
  let dump ← dumps.get module
  match dump.info with
  | none => return (tree, "")
  | some info =>
    match writePages directory module tree (pages dump info) with
    | (tree, none) => return (tree, "")
    | (tree, some fault) => return (tree, failureReport module fault)

/-- Copying the text of a module instead: what is asked of the project for it is not there, so only a
module without information is copied, to nothing. -/
def copySource (dumps : Dumps) (module : Value) : Except Fault Unit := do
  match (← dumps.get module).info with
  | none => return ()
  | some info =>
    discard (module.joinRaw ".")
    discard (info.attr "docstring")
    throw (.noAttribute "LeanProject" "root_dir")

end ProofDump.Flat
