import ProofDump.FileTree
import ProofDump.Json.Reader
import ProofDump.Text.Lines
import ProofDump.Value.Access
import ProofDump.Value.Report

/-!
# Loading files of records

A file of records is read as text and then as JSON. Readers differ in what they do when that fails: most
report the failure and go on with no records at all, one passes the fault on.
-/

namespace ProofDump.Loaded

/-- What a reader does about a file that cannot be read. -/
inductive Reader where
  /-- Report the failure. -/
  | reporting
  /-- Report the file and the failure. -/
  | naming
  /-- Report the failure as one of the elaboration file. -/
  | parsing
  /-- Pass the fault on. -/
  | strict
  deriving DecidableEq, Repr

/-- What is said before a failure. -/
def failureMark : String := "❌ 讀取檔案時發生一般錯誤: "

/-- The report about a file that cannot be read, if the reader makes one. -/
def Reader.report? (reader : Reader) (path : String) (fault : Fault) : Option String :=
  match reader with
  | reporting => some (failureMark ++ fault.message ++ "\n")
  | naming =>
    some ("\n" ++ failureMark ++ path ++ "\n" ++ failureMark ++ fault.message ++ "\n")
  | parsing => some ("XXXX Error parsing elab.json: " ++ fault.message ++ "\n")
  | strict => none

/-- The content of a file of records, as JSON. -/
def read (tree : FileTree) (path : Value) : Except Fault Value := do
  let content ← tree.read (← path.pathText)
  Json.read (String.ofList (Text.fileText content))

/-- The content of a file of records, or no records and a report. -/
def load (reader : Reader) (tree : FileTree) (path : Value) : Except Fault Value × String :=
  match read tree path with
  | .ok value => (.ok value, "")
  | .error fault =>
    match reader.report? path.reported fault with
    | some report => (.ok (.arr []), report)
    | none => (.error fault, "")

end ProofDump.Loaded
