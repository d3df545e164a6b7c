import ProofDump.Fault
import ProofDump.Text.Quoted

/-!
# Templates

A template is a text with placeholders: a dollar sign and a name, which may stand between braces. Two
dollar signs stand for one. Names are made of letters, digits and underscores of ASCII and do not start
with a digit. A dollar sign before anything else, and a name without a value, are faults.
-/

namespace ProofDump.Text

/-- Whether a name of a placeholder can start with a character. -/
def startsName (c : Char) : Bool := c = '_' || c.isAlpha

/-- Whether a name of a placeholder can go on with a character. -/
def continuesName (c : Char) : Bool := startsName c || c.isDigit

/-- The name at the start of a text, if one stands there. -/
def nameAt? (text : List Char) : Option (List Char) :=
  match text with
  | c :: rest => if startsName c then some (c :: rest.takeWhile continuesName) else none
  | [] => none

/-- What the text after a dollar sign stands for: a dollar sign, or a name, with the number of
characters used. -/
def placeholder? (text : List Char) : Option (Option (List Char) × Nat) :=
  match text with
  | '$' :: _ => some (none, 1)
  | '\x7b' :: rest =>
    match nameAt? rest with
    | some name =>
      if rest[name.length]? = some '\x7d' then some (some name, name.length + 2) else none
    | none => none
  | _ => (nameAt? text).map fun name => (some name, name.length)

/-- What takes the place of a dollar sign and the text after it, and the number of characters used. -/
def substitute (values : List (String × String)) (text : List Char) :
    Except Fault (List Char × Nat) :=
  match placeholder? text with
  | none => .error (.badValue "Invalid placeholder in string")
  | some (none, used) => .ok (['$'], used)
  | some (some name, used) =>
    match values.lookup (String.ofList name) with
    | some value => .ok (value.toList, used)
    | none => .error (.noKey (quoted (String.ofList name)))

/-- Fill a template; `skip` is the number of characters of a placeholder still to be dropped. -/
def fillFrom (values : List (String × String)) (skip : Nat) :
    List Char → Except Fault (List Char)
  | [] => .ok []
  | c :: rest =>
    match skip with
    | skip + 1 => fillFrom values skip rest
    | 0 =>
      if c = '$' then do
        let (text, used) ← substitute values rest
        let after ← fillFrom values used rest
        return text ++ after
      else (c :: ·) <$> fillFrom values 0 rest

/-- A template with its placeholders replaced by the values of their names. -/
def fill (values : List (String × String)) (template : String) : Except Fault String :=
  String.ofList <$> fillFrom values 0 template.toList

end ProofDump.Text
