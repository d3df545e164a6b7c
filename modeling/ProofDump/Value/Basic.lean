import ProofDump.Decimal
import ProofDump.Fault

/-!
# Values of a dump

A dump is JSON, and what a program may find in one is a value of any shape. `Value` keeps the order in
which the fields of an object were first written, since every text made from a dump shows it. This
module holds the type, the words reports use for the kinds of values, and the table of fields.
-/

namespace ProofDump

/-- A value of a dump. The fields of an object keep the order in which they were first written. -/
inductive Value where
  | null
  | bool (b : Bool)
  | int (n : Int)
  | dec (d : Decimal)
  | str (s : String)
  | arr (items : List Value)
  | obj (fields : List (String × Value))
  deriving Repr, Inhabited

/-- Named values in the order in which the names were first written. -/
abbrev Fields := List (String × Value)

namespace Fields

/-- The value under a name. -/
def get? (fields : Fields) (name : String) : Option Value :=
  fields.lookup name

/-- Give a name a value: in its old place if it has one, at the end otherwise. -/
def put (fields : Fields) (name : String) (value : Value) : Fields :=
  match fields with
  | [] => [(name, value)]
  | (key, old) :: rest =>
    if key = name then (key, value) :: rest else (key, old) :: put rest name value

/-- Drop the entries under a name. -/
def erase (fields : Fields) (name : String) : Fields :=
  fields.filter fun entry => entry.1 ≠ name

end Fields

namespace Value

/-- The word reports use for the kind of a value. -/
def kind : Value → String
  | null => "NoneType"
  | bool _ => "bool"
  | int _ => "int"
  | dec _ => "float"
  | str _ => "str"
  | arr _ => "list"
  | obj _ => "dict"

/-- The word reports use for the kind of a value of a loaded dump, in which a table is a record. -/
def loadedKind : Value → String
  | obj _ => "Obj"
  | other => other.kind

/-- Whether a value counts as present: null, false, zero and everything empty do not. -/
def truthy : Value → Bool
  | null => false
  | bool b => b
  | int n => n ≠ 0
  | dec d => !d.isZero
  | str s => !s.isEmpty
  | arr items => !items.isEmpty
  | obj fields => !fields.isEmpty

/-- The value is null. -/
def isNull : Value → Bool
  | null => true
  | _ => false

/-- The text of a value that is one. -/
def text? : Value → Option String
  | str s => some s
  | _ => none

/-- A list of texts. -/
def texts (ts : List String) : Value := arr (ts.map str)

end Value

end ProofDump
