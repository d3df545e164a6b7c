import ProofDump.Json.Printer
import ProofDump.Json.Reader
import ProofDump.Text.Blank
import ProofDump.Text.Lines
import ProofDump.Value.Access
import ProofDump.Value.Order

/-!
# Proof records

A proof record says that a declaration of a module has a certain proof. Records are kept in files, one
on a line; a table holds the last proof written for every module and name, in the order in which they
first occur.
-/

namespace ProofDump.Records

/-- The module and the full name of a declaration. -/
abbrev Key := Value × Value

/-- A record as a table. -/
def record (key : Key) (proof : Value) : Value :=
  .obj [("module", key.1), ("full_name", key.2), ("tactic_proof", proof)]

/-- A record as a line of a file. -/
def recordLine (key : Key) (proof : Value) : String := Json.line (record key proof) ++ "\n"

/-- Whether two keys are equal. -/
def sameKey (left right : Key) : Bool :=
  left.1.sameMember right.1 && left.2.sameMember right.2

/-- Proofs by module and name. -/
abbrev Table := List (Key × Value)

namespace Table

/-- The proof under a key. -/
def get? (table : Table) (key : Key) : Option Value :=
  (table.find? fun entry => sameKey entry.1 key).map (·.2)

/-- Whether a key is in the table. -/
def has (table : Table) (key : Key) : Bool := table.any fun entry => sameKey entry.1 key

/-- Put a proof under a key: in its old place if it has one, at the end otherwise. -/
def put (table : Table) (key : Key) (proof : Value) : Table :=
  match table with
  | [] => [(key, proof)]
  | (known, old) :: rest =>
    if sameKey known key then (known, proof) :: rest else (known, old) :: put rest key proof

end Table

/-- Lists and tables cannot be part of a key. -/
def checkKeyPart : Value → Except Fault Unit
  | .arr items => .error (.unhashable (Value.arr items).kind)
  | .obj fields => .error (.unhashable (Value.obj fields).kind)
  | _ => .ok ()

/-- The key and the proof of a line; a record without a proof counts as one with an empty proof. -/
def readLine (line : List Char) : Except Fault (Key × Value) := do
  let item ← Json.read (String.ofList line)
  let module ← item.find "module" .null
  let name ← item.find "full_name" .null
  let proof ← item.find "tactic_proof" (.str "")
  checkKeyPart module
  checkKeyPart name
  return ((module, name), proof)

/-- Add the records of lines to a table; blank lines are skipped. -/
def addLines (table : Table) : List (List Char) → Except Fault Table
  | [] => .ok table
  | line :: rest =>
    if (Text.strip line).isEmpty then addLines table rest
    else do
      let (key, proof) ← readLine line
      addLines (table.put key proof) rest

/-- The table of a file. -/
def ofFile (content : String) : Except Fault Table :=
  addLines [] (Text.lines (Text.fileText content))

end ProofDump.Records
