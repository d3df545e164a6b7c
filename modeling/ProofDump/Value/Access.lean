import ProofDump.Text.Quoted
import ProofDump.Value.Basic

/-!
# Looking inside values

Two readings of an object live side by side. In raw dumps it is a table, asked by `key`, `find` and
`member`. In loaded dumps it is a record, asked by `attr`, in which a part that was not written is
null, and which always counts as present. What is not an object has no parts at all, and asking for
one is a fault. Walking, indexing, joining and measuring follow one rule for both.
-/

namespace ProofDump.Value

/-! ### Records -/

/-- A part of a loaded record; one that was not written is null. -/
def attr (value : Value) (name : String) : Except Fault Value :=
  match value with
  | obj fields => .ok ((Fields.get? fields name).getD null)
  | other => .error (.noAttribute other.kind name)

/-- Whether a value of a loaded dump counts as present: a record always does. -/
def present : Value → Bool
  | obj _ => true
  | other => other.truthy

/-- A part of a record that is only wanted when it counts as present. -/
def presentAttr (value : Value) (name : String) : Except Fault (Option Value) := do
  if value.present then
    let part ← value.attr name
    return if part.present then some part else none
  else return none

/-! ### Tables -/

/-- The entry of a table under a name, `default` when there is none; only tables can be asked. -/
def find (value : Value) (name : String) (default : Value) : Except Fault Value :=
  match value with
  | obj fields => .ok ((Fields.get? fields name).getD default)
  | other => .error (.noAttribute other.kind "get")

/-- The entry of a table under a name. -/
def key (value : Value) (name : String) : Except Fault Value :=
  match value with
  | obj fields =>
    match Fields.get? fields name with
    | some entry => .ok entry
    | none => .error (.noKey (Text.quoted name))
  | str _ => .error (.badIndex "string" "str")
  | arr _ => .error (.badIndex "list" "str")
  | other => .error (.notIndexable other.kind)

/-! ### Paths -/

/-- The text of a path; nothing else is one. -/
def pathText (value : Value) : Except Fault String :=
  match value with
  | str text => .ok text
  | other => .error (.badArgument
      ("expected str, bytes or os.PathLike object, not " ++ other.kind))

/-! ### Sequences -/

/-- The members met when walking through a value: those of a list, the letters of a text, the names of
a table. -/
def items (value : Value) : Except Fault (List Value) :=
  match value with
  | arr items => .ok items
  | str s => .ok (s.toList.map fun c => str (String.ofList [c]))
  | obj fields => .ok (fields.map fun entry => str entry.1)
  | other => .error (.notIterable other.kind)

/-- The members met when walking through a value of a loaded dump: a record has none. -/
def loadedItems (value : Value) : Except Fault (List Value) :=
  match value with
  | obj fields => .error (.notIterable (obj fields).loadedKind)
  | other => other.items

/-- The member at a place counted from zero, or from the end when negative. -/
def place {α : Type} (members : List α) (index : Int) : Option α :=
  if 0 ≤ index then members[index.toNat]?
  else if (-index).toNat ≤ members.length then members[members.length - (-index).toNat]?
  else none

/-- The member of a sequence at a place. -/
def index (value : Value) (place : Int) : Except Fault Value :=
  match value with
  | arr items =>
    match Value.place items place with
    | some item => .ok item
    | none => .error (.outOfBounds "list")
  | str s =>
    match Value.place s.toList place with
    | some c => .ok (str (String.ofList [c]))
    | none => .error (.outOfBounds "string")
  | obj _ => .error (.noKey (toString place))
  | other => .error (.notIndexable other.kind)

/-- The member of a sequence of a loaded dump at a place: a record has none. -/
def loadedIndex (value : Value) (place : Int) : Except Fault Value :=
  match value with
  | obj fields => .error (.notIndexable (obj fields).loadedKind)
  | other => other.index place

/-- Number of members. -/
def length (value : Value) : Except Fault Nat :=
  match value with
  | arr items => .ok items.length
  | str s => .ok s.length
  | obj fields => .ok fields.length
  | other => .error (.noLength other.kind)

/-- Number of members of a value of a loaded dump: a record has no length. -/
def loadedLength (value : Value) : Except Fault Nat :=
  match value with
  | obj fields => .error (.noLength (obj fields).loadedKind)
  | other => other.length

/-- The texts that members are; `start` is the place of the first. -/
def textsFrom (start : Nat) : List Value → Except Fault (List String)
  | [] => .ok []
  | str s :: rest => (s :: ·) <$> textsFrom (start + 1) rest
  | other :: _ => .error (.notText start other.kind)

/-- The texts that the members of a value are, joined with a separator between them. -/
def joinMembers (separator : String) (members : Except Fault (List Value)) : Except Fault String :=
  match members with
  | .ok members => separator.intercalate <$> textsFrom 0 members
  | .error _ => .error .notJoinable

/-- The texts that a raw value is a sequence of, joined with a separator between them. -/
def joinRaw (separator : String) (value : Value) : Except Fault String :=
  joinMembers separator value.items

/-- The texts that a value of a loaded dump is a sequence of, joined with a separator between them. -/
def joinWith (separator : String) (value : Value) : Except Fault String :=
  joinMembers separator value.loadedItems

end ProofDump.Value
