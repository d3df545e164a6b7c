import ProofDump.Text.Numeral
import ProofDump.Text.Quoted
import ProofDump.Value.Basic

/-!
# Values as integers

Positions in dumps are integers, and so is whatever stands for one: a truth value, a number cut off at
its point, a numeral in a text.
-/

namespace ProofDump.Value

/-- The integer that a value is; a truth value is one too. -/
def integer? : Value → Option Int
  | int n => some n
  | bool b => some b.toNat
  | _ => none

/-- The integer that a value stands for. -/
def toInteger (value : Value) : Except Fault Int :=
  match value with
  | int n => .ok n
  | bool b => .ok b.toNat
  | dec d =>
    match d.truncate? with
    | some n => .ok n
    | none =>
      .error (.notFinite (if d = .undefined then "NaN" else "infinity"))
  | str s =>
    match Text.integer? s with
    | some n => .ok n
    | none => .error (.notNumeral (Text.quoted s))
  | other => .error (.notNumber other.kind)

/-- An end of a slice: open, or a position. -/
def sliceEnd (value : Value) : Except Fault (Option Int) :=
  match value, value.integer? with
  | null, _ => .ok none
  | _, some n => .ok (some n)
  | _, none => .error (.badArgument
      "slice indices must be integers or None or have an __index__ method")

/-- The sum of a number and a natural one. -/
def plus (value : Value) (amount : Nat) : Except Fault Value :=
  match value with
  | int n => .ok (int (n + amount))
  | bool b => .ok (int (b.toNat + amount))
  | dec d => .ok (dec (d.plus amount))
  | other => .error (.notAddable other.kind (int amount).kind)

end ProofDump.Value
