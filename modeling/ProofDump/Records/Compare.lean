import ProofDump.Records.Table
import ProofDump.Sorting

/-!
# Comparing two files of proof records

Two files are compared key by key. A key is in exactly one of four lists: only in the first file, only
in the second, in both with equal proofs, in both with different proofs; of two different proofs the
second is kept. Every list is written in the order of the keys.
-/

namespace ProofDump.Records

/-- Whether a key comes before another: the modules decide, then the names. -/
def keyBefore (left right : Key) : Except Fault Bool :=
  Value.less (.arr [left.1, left.2]) (.arr [right.1, right.2])

/-- The entries of a table whose keys are not in another. -/
def onlyIn (table other : Table) : Table := table.filter fun entry => !other.has entry.1

/-- The keys that two tables share, as the smaller one writes them. -/
def sharedKeys (first second : Table) : List Key :=
  if first.length < second.length then (first.map (·.1)).filter second.has
  else (second.map (·.1)).filter first.has

/-- The entries of a table under the shared keys whose proofs are equal, or different. -/
def sharedEntries (first second source : Table) (equal : Bool) : Table :=
  (sharedKeys first second).filterMap fun key =>
    match first.get? key, second.get? key with
    | some a, some b => if a.same b == equal then (source.get? key).map (key, ·) else none
    | _, _ => none

/-- The lines of a table in the order of its keys. -/
def tableText (table : Table) : Except Fault String := do
  let sorted ← Sorting.sortM (fun a b => keyBefore a.1 b.1) table
  let text := String.join (sorted.map fun entry => recordLine entry.1 entry.2)
  match Text.written? text.toList with
  | some content => return String.ofList content
  | none => throw .unencodable

/-- The four lists of a comparison, as tables. -/
structure Comparison where
  onlyFirst : Table
  onlySecond : Table
  same : Table
  different : Table

/-- The comparison of two tables. -/
def compare (first second : Table) : Comparison where
  onlyFirst := onlyIn first second
  onlySecond := onlyIn second first
  same := sharedEntries first second first true
  different := sharedEntries first second second false

/-- The texts of the four files of a comparison. -/
structure Report where
  onlyFirst : String
  onlySecond : String
  same : String
  different : String
  /-- What is printed at the end. -/
  summary : String

/-- How many keys are in each list. -/
def summary (comparison : Comparison) : String :=
  "比對完成！\n- 僅在文件 1: " ++ toString comparison.onlyFirst.length ++
    "\n- 僅在文件 2: " ++ toString comparison.onlySecond.length ++
    "\n- 內容完全相同: " ++ toString comparison.same.length ++
    "\n- 內容不同: " ++ toString comparison.different.length ++ "\n"

/-- Compare two files. -/
def compareFiles (first second : String) : Except Fault Report := do
  let first ← ofFile first
  let second ← ofFile second
  let comparison := compare first second
  return {
    onlyFirst := ← tableText comparison.onlyFirst
    onlySecond := ← tableText comparison.onlySecond
    same := ← tableText comparison.same
    different := ← tableText comparison.different
    summary := summary comparison }

end ProofDump.Records
