import ProofDump.Text.Quoted
import ProofDump.Value.Basic

/-!
# Values in reports

How a report shows a value: texts as they are at the top and between quotes inside other values, lists
in brackets, tables in braces, and the words `None`, `True` and `False`.
-/

namespace ProofDump.Value

mutual

/-- A value inside a report, texts between quotes. -/
def shown : Value → String
  | null => "None"
  | bool b => if b then "True" else "False"
  | int n => toString n
  | dec d => d.text
  | str s => Text.quoted s
  | arr items => "[" ++ shownItems items ++ "]"
  | obj fields => "\x7b" ++ shownFields fields ++ "\x7d"

def shownItems : List Value → String
  | [] => ""
  | [item] => shown item
  | item :: rest => shown item ++ ", " ++ shownItems rest

def shownFields : List (String × Value) → String
  | [] => ""
  | [(name, value)] => Text.quoted name ++ ": " ++ shown value
  | (name, value) :: rest => Text.quoted name ++ ": " ++ shown value ++ ", " ++ shownFields rest

end

/-- A value as the text of a report: a text is shown as it is. -/
def reported : Value → String
  | str s => s
  | other => other.shown

end ProofDump.Value
