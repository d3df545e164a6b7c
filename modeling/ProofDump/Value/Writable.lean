import ProofDump.Text.Numeral
import ProofDump.Value.Basic

/-!
# Writable values

A loaded record has no written form, and neither has an integer with more digits than numerals may
have. A value can be written when neither is in it.
-/

namespace ProofDump.Value

/-- Whether an integer has no more digits than a numeral may have. -/
def isShort (n : Int) : Bool := (Nat.toDigits 10 n.natAbs).length ≤ Text.longestNumeral

/-- What writing an integer with too many digits comes to. -/
def tooManyDigits : Fault :=
  .badValue ("Exceeds the limit (4300 digits) for integer string conversion; " ++
    "use sys.set_int_max_str_digits() to increase the limit")

mutual

/-- Refuse a value that contains a record or an integer with too many digits. -/
def checkWritable : Value → Except Fault Unit
  | obj fields => .error (.unwritable (obj fields).loadedKind)
  | arr items => checkAllWritable items
  | int n => if isShort n then .ok () else .error tooManyDigits
  | _ => .ok ()

/-- Refuse a list of values one of which contains a record or an integer with too many digits. -/
def checkAllWritable : List Value → Except Fault Unit
  | [] => .ok ()
  | item :: rest =>
    match checkWritable item with
    | .ok () => checkAllWritable rest
    | .error fault => .error fault

end

end ProofDump.Value
