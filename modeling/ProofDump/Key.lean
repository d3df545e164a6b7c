import ProofDump.Text.Search
import ProofDump.Text.Title
import ProofDump.Value.Access

/-!
# Keys of records

A key is written with underscores between its words, or with a capital at the start of every word but
the first. Only the way from underscores to capitals exists: on the way back a text would have to grow
in place, and no text can.
-/

namespace ProofDump.Key

/-- A key with capitals in place of underscores. -/
def toCapitals (key : Value) : Except Fault String :=
  match key with
  | .str text =>
    match Text.splitAt '_' text with
    | [] => .ok ""
    | first :: rest => .ok (first ++ String.join (rest.map fun word =>
        String.ofList (Text.title word.toList)))
  | other => .error (.noAttribute other.kind "split")

/-- A key with underscores in place of capitals; only the empty one has such a form. -/
def toUnderscores (key : Value) : Except Fault String := do
  match ← key.items with
  | [] => return ""
  | .str _ :: _ => throw (.noAttribute "str" "append")
  | other :: _ => throw (.noAttribute other.kind "isupper")

/-- A table with underscores in place of capitals in its keys. -/
def tableToUnderscores (table : Value) : Except Fault Fields :=
  match table with
  | .obj fields => fields.foldlM (fun done (key, value) => do
      return Fields.put done (← toUnderscores (.str key)) value) []
  | other => .error (.noAttribute other.kind "items")

end ProofDump.Key
