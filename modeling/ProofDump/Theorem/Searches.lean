import ProofDump.Project.Search
import ProofDump.Theorem.Export

/-!
# Exports of found modules

An export of all modules that searches find. It asks for a search without saying what to exclude, which
the search that can exclude modules does not allow; the other one has no access to files. So only an
export without searches comes to an end, and it reports the operators it has counted.
-/

namespace ProofDump.Theorem

/-- The operators an export starts to count. -/
def firstCounts : Counts := [(.str ":=", .int 0)]

/-- The report about counted operators. -/
def countsReport (counts : Counts) : String :=
  let entries := counts.map fun (operator, count) => operator.shown ++ ": " ++ count.shown
  "Theorem Operator Set: \x7b" ++ ", ".intercalate entries ++ "\x7d\n"

/-- The modules that a search of an export finds. -/
def exportSearch (files : Option FileTree) (root : String) (search : Value) :
    Except Fault (List (List String)) :=
  match files with
  | some _ => .error (.badCall "a search needs to be told what to exclude")
  | none => Project.search none root none search

/-- What an export of found modules reports. The directory of the exports is made first; searches see
the tree only where they have access to files. -/
def exportSearches (tree : FileTree) (files : Option FileTree) (root : String) (searches : Value) :
    Except Fault String := do
  discard (tree.makeDirectories (.ofText (root ++ "/.jixiaw")))
  let modules := (← (← searches.items).mapM (exportSearch files root)).flatten
  let counts := modules.foldl (fun counts module =>
    (exportModule files root [] counts (Value.texts module)).counts) firstCounts
  return countsReport counts

end ProofDump.Theorem
