import ProofDump.Text.Halves
import ProofDump.Text.Numeral
import ProofDump.Value.Basic

/-!
# Reading JSON

The reader works on the list of characters that is still to be read. A problem is reported at a place,
which is kept as the number of characters from there to the end, so that no position has to be carried
along; `Problem.fault` turns it into line, column and offset. Integers have a largest number of digits,
a repeated name keeps its first place and its last value, and besides the standard's values the words
`NaN`, `Infinity` and `-Infinity` are read. Texts are held as `Text.Halves` says.

Of two steps of the reader at least one consumes a character, so a text never needs more steps than
twice its characters; `readChars` starts with two more than that.
-/

namespace ProofDump.Json

/-- A problem met while reading. -/
inductive Problem where
  /-- Something is wrong at a place, given by the number of characters from there to the end. -/
  | misplaced (reason : String) (remaining : Nat)
  /-- An integer has this many digits, which are too many. -/
  | longNumeral (digits : Nat)
  deriving DecidableEq, Repr

/-- The fault of a text with something wrong at the place with so many characters to the end. -/
def misplacedFault (text : List Char) (reason : String) (remaining : Nat) : Fault :=
  let before := text.take (text.length - remaining)
  let line := before.count '\n' + 1
  let column := (before.reverse.takeWhile (· ≠ '\n')).length + 1
  .badJson reason line column before.length

/-- The problem as a fault of the whole text. -/
def Problem.fault (problem : Problem) (text : List Char) : Fault :=
  match problem with
  | misplaced reason remaining => misplacedFault text reason remaining
  | longNumeral digits => .longNumeral digits

/-- What a step of the reader yields: a result and what is left to read. -/
abbrev Step (α : Type) : Type := Except Problem (α × List Char)

/-- Refuse the text at the place where `rest` begins. -/
def refuse {α : Type} (reason : String) (rest : List Char) : Except Problem α :=
  .error (.misplaced reason rest.length)

/-- Blanks between the parts of a JSON text. -/
def isGap (c : Char) : Bool := c = ' ' || c = '\t' || c = '\n' || c = '\r'

/-- Drop the blanks at the start. -/
def skipGaps (text : List Char) : List Char := text.dropWhile isGap

/-! ### Texts -/

/-- The value of a hexadecimal digit. -/
def hexValue? (c : Char) : Option Nat :=
  if '0' ≤ c ∧ c ≤ '9' then some (c.toNat - 48)
  else if 'a' ≤ c ∧ c ≤ 'f' then some (c.toNat - 87)
  else if 'A' ≤ c ∧ c ≤ 'F' then some (c.toNat - 55)
  else none

/-- The number spelled by four hexadecimal digits. -/
def hexQuad? (a b c d : Char) : Option Nat := do
  return (((← hexValue? a) * 16 + (← hexValue? b)) * 16 + (← hexValue? c)) * 16 + (← hexValue? d)

/-- The character that a letter after a backslash stands for. -/
def unescape? : Char → Option Char
  | '"' => some '"'
  | '\\' => some '\\'
  | '/' => some '/'
  | 'b' => some '\x08'
  | 'f' => some '\x0c'
  | 'n' => some '\n'
  | 'r' => some '\r'
  | 't' => some '\t'
  | _ => none

/-- The first half of a character outside the basic plane. -/
def isHighHalf (unit : Nat) : Bool := 0xD800 ≤ unit && unit < 0xDC00

/-- The second half of a character outside the basic plane. -/
def isLowHalf (unit : Nat) : Bool := 0xDC00 ≤ unit && unit < 0xE000

/-- The characters by which a text holds a single code unit. -/
def unitChars (unit : Nat) : List Char :=
  if Text.isHalf unit then Text.halfChars unit else [Char.ofNat unit]

/-- The character made of two halves. -/
def joinHalves (high low : Nat) : Char :=
  Char.ofNat (0x10000 + (high - 0xD800) * 0x400 + (low - 0xDC00))

/-- The code unit whose escape comes next, unless the text ends with that escape. -/
def nextUnit? : List Char → Except Problem (Option Nat)
  | '\\' :: 'u' :: a :: b :: c :: d :: rest =>
    if rest.isEmpty then .ok none
    else match hexQuad? a b c d with
      | none => .error (.misplaced "Invalid \\uXXXX escape" (rest.length + 5))
      | some unit => .ok (some unit)
  | _ => .ok none

/-- The characters by which a text holds what an escaped code unit stands for, and how much of the text
after the escape belongs to it: the escape of a second half. -/
def unescapeUnit (unit : Nat) (rest : List Char) : Except Problem (List Char × Nat) :=
  if isHighHalf unit then
    match nextUnit? rest with
    | .error problem => .error problem
    | .ok none => .ok (unitChars unit, 0)
    | .ok (some other) =>
      if isLowHalf other then .ok (Text.holdChar (joinHalves unit other), 6)
      else .ok (unitChars unit, 0)
  else .ok (unitChars unit, 0)

/-- Read the rest of a text after its opening quote. `start` is the number of characters from that
quote to the end, `read` the characters read so far, last one first. -/
def readText (start : Nat) (read : List Char) : List Char → Step String
  | [] => .error (.misplaced "Unterminated string starting at" start)
  | '"' :: rest => .ok (String.ofList read.reverse, rest)
  | '\\' :: [] => .error (.misplaced "Unterminated string starting at" start)
  | '\\' :: 'u' :: a :: b :: c :: d :: rest =>
    if rest.isEmpty then .error (.misplaced "Invalid \\uXXXX escape" 5)
    else match hexQuad? a b c d with
      | none => .error (.misplaced "Invalid \\uXXXX escape" (rest.length + 5))
      | some unit =>
        match unescapeUnit unit rest with
        | .error problem => .error problem
        | .ok (chars, used) => readText start (chars.reverse ++ read) (rest.drop used)
  | '\\' :: 'u' :: short => .error (.misplaced "Invalid \\uXXXX escape" (short.length + 1))
  | '\\' :: c :: rest =>
    match unescape? c with
    | some letter => readText start (letter :: read) rest
    | none => .error (.misplaced "Invalid \\escape" (rest.length + 2))
  | c :: rest =>
    if c.toNat < 0x20 then .error (.misplaced "Invalid control character at" (rest.length + 1))
    else readText start ((Text.holdChar c).reverse ++ read) rest
termination_by text => text.length
decreasing_by
  all_goals
    simp only [List.length_cons, List.length_drop]
    omega

/-! ### Numbers -/

/-- The number that decimal digits spell. -/
def digitsValue (digits : List Char) : Nat :=
  digits.foldl (fun total c => total * 10 + (c.toNat - 48)) 0

/-- The digits after a point, if a point and a digit come first. -/
def readFraction : List Char → List Char × List Char
  | '.' :: d :: rest =>
    if d.isDigit then ((d :: rest).takeWhile Char.isDigit, (d :: rest).dropWhile Char.isDigit)
    else ([], '.' :: d :: rest)
  | rest => ([], rest)

/-- The exponent after its mark, if the mark and at least one digit come first. -/
def readExponent (text : List Char) : Option Int × List Char :=
  match text with
  | mark :: rest =>
    if mark = 'e' ∨ mark = 'E' then
      let (negative, digits) := match rest with
        | '-' :: digits => (true, digits)
        | '+' :: digits => (false, digits)
        | digits => (false, digits)
      let figures := digits.takeWhile Char.isDigit
      if figures.isEmpty then (none, text)
      else
        let size := (digitsValue figures : Int)
        (some (if negative then -size else size), digits.dropWhile Char.isDigit)
    else (none, text)
  | [] => (none, [])

/-- Read the digits of a number after its sign; `start` is the text from the sign on. -/
def readNumber (start : List Char) (negative : Bool) (text : List Char) : Step Value :=
  match text with
  | [] => refuse "Expecting value" start
  | c :: rest =>
    if !c.isDigit then refuse "Expecting value" start
    else
      let whole := if c = '0' then [c] else c :: rest.takeWhile Char.isDigit
      let afterWhole := if c = '0' then rest else rest.dropWhile Char.isDigit
      let (fraction, afterFraction) := readFraction afterWhole
      let (exponent, afterNumber) := readExponent afterFraction
      if fraction.isEmpty && exponent.isNone then
        let size := (digitsValue whole : Int)
        if Text.longestNumeral < whole.length then .error (.longNumeral whole.length)
        else .ok (.int (if negative then -size else size), afterNumber)
      else
        .ok (.dec (.ofDigits negative (digitsValue (whole ++ fraction))
          (exponent.getD 0 - fraction.length)), afterNumber)

/-! ### Values -/

mutual

/-- Read a value. -/
def readValue : Nat → List Char → Step Value
  | 0, text => refuse "Expecting value" text
  | fuel + 1, text =>
    match text with
    | '"' :: rest => (readText text.length [] rest).map fun (s, rest) => (.str s, rest)
    | '\x7b' :: rest =>
      match skipGaps rest with
      | '\x7d' :: rest => .ok (.obj [], rest)
      | rest => readFields fuel [] rest
    | '[' :: rest =>
      match skipGaps rest with
      | ']' :: rest => .ok (.arr [], rest)
      | rest => readItems fuel [] rest
    | 'n' :: 'u' :: 'l' :: 'l' :: rest => .ok (.null, rest)
    | 't' :: 'r' :: 'u' :: 'e' :: rest => .ok (.bool true, rest)
    | 'f' :: 'a' :: 'l' :: 's' :: 'e' :: rest => .ok (.bool false, rest)
    | 'N' :: 'a' :: 'N' :: rest => .ok (.dec .undefined, rest)
    | 'I' :: 'n' :: 'f' :: 'i' :: 'n' :: 'i' :: 't' :: 'y' :: rest =>
      .ok (.dec (.infinite false), rest)
    | '-' :: 'I' :: 'n' :: 'f' :: 'i' :: 'n' :: 'i' :: 't' :: 'y' :: rest =>
      .ok (.dec (.infinite true), rest)
    | '-' :: rest => readNumber text true rest
    | _ => readNumber text false text

/-- Read the members of a list from the first of them on; `read` holds those before, last one
first. -/
def readItems : Nat → List Value → List Char → Step Value
  | 0, _, text => refuse "Expecting value" text
  | fuel + 1, read, text =>
    match readValue fuel text with
    | .error problem => .error problem
    | .ok (item, rest) =>
      match skipGaps rest with
      | ']' :: rest => .ok (.arr (item :: read).reverse, rest)
      | ',' :: rest => readItems fuel (item :: read) (skipGaps rest)
      | rest => refuse "Expecting ',' delimiter" rest

/-- Read the fields of an object from the first of them on; `read` holds those before. -/
def readFields : Nat → Fields → List Char → Step Value
  | 0, _, text => refuse "Expecting value" text
  | fuel + 1, read, text =>
    match text with
    | '"' :: rest =>
      match readText text.length [] rest with
      | .error problem => .error problem
      | .ok (name, rest) =>
        match skipGaps rest with
        | ':' :: rest =>
          match readValue fuel (skipGaps rest) with
          | .error problem => .error problem
          | .ok (value, rest) =>
            match skipGaps rest with
            | '\x7d' :: rest => .ok (.obj (Fields.put read name value), rest)
            | ',' :: rest => readFields fuel (Fields.put read name value) (skipGaps rest)
            | rest => refuse "Expecting ',' delimiter" rest
        | rest => refuse "Expecting ':' delimiter" rest
    | rest => refuse "Expecting property name enclosed in double quotes" rest

end

/-- Read a text that holds one value and nothing else but blanks around it. -/
def readChars (text : List Char) : Except Problem Value :=
  if text.head? = some '﻿' then
    refuse "Unexpected UTF-8 BOM (decode using utf-8-sig)" text
  else
    match readValue (2 * text.length + 2) (skipGaps text) with
    | .error problem => .error problem
    | .ok (value, rest) =>
      match skipGaps rest with
      | [] => .ok value
      | rest => refuse "Extra data" rest

/-- The value that a JSON text holds. -/
def read (text : String) : Except Fault Value :=
  let letters := text.toList
  (readChars letters).mapError (Problem.fault · letters)

end ProofDump.Json
