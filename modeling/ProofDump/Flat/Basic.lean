import ProofDump.Value.Writable

/-!
# Flat forms

A flat form is what a loaded record becomes before it is written: named parts in a fixed order, lists
of forms, and leaves that are handed through as they were loaded. Every form has a value; it can be
written when no leaf holds a record.
-/

namespace ProofDump

/-- A record with its parts in order, a list, or a value that is handed through. -/
inductive Form where
  | leaf (value : Value)
  | list (items : List Form)
  | record (parts : List (String × Form))
  deriving Inhabited

namespace Form

mutual

/-- The value of a form. -/
def toValue : Form → Value
  | leaf value => value
  | list items => .arr (itemValues items)
  | record parts => .obj (partValues parts)

def itemValues : List Form → List Value
  | [] => []
  | item :: rest => item.toValue :: itemValues rest

def partValues : List (String × Form) → List (String × Value)
  | [] => []
  | (name, part) :: rest => (name, part.toValue) :: partValues rest

end

mutual

/-- The leaves of a form from left to right. -/
def leaves : Form → List Value
  | leaf value => [value]
  | list items => itemLeaves items
  | record parts => partLeaves parts

def itemLeaves : List Form → List Value
  | [] => []
  | item :: rest => item.leaves ++ itemLeaves rest

def partLeaves : List (String × Form) → List Value
  | [] => []
  | (_, part) :: rest => part.leaves ++ partLeaves rest

end

/-- The form of a text. -/
def text (s : String) : Form := leaf (.str s)

/-- The form of what is absent. -/
def absent : Form := leaf .null

/-- The value of a form that can be written. -/
def written (form : Form) : Except Fault Value := do
  Value.checkAllWritable form.leaves
  return form.toValue

end Form

end ProofDump
