import ProofDump.Text.Quoted
import ProofDump.Value.Basic

/-!
# Writing JSON

A value is written on one line, with a blank after every comma and colon, or over several lines with
two blanks more for every level. In texts the quote, the backslash and the control characters are
escaped; beyond that characters stand for themselves, or, in plain form, everything outside ASCII is
escaped too.
-/

namespace ProofDump.Json

/-- Which characters of a text stand for themselves. -/
inductive Charset where
  /-- Only those of ASCII. -/
  | plain
  /-- All of them. -/
  | full
  deriving DecidableEq, Repr

/-- The escape of a code unit. -/
def escapeUnit (unit : Nat) : List Char := ['\\', 'u'] ++ Text.hexadecimal 4 unit

/-- A character as it stands in a written text. -/
def writeChar (charset : Charset) (c : Char) : List Char :=
  if c = '"' then ['\\', '"']
  else if c = '\\' then ['\\', '\\']
  else if c = '\n' then ['\\', 'n']
  else if c = '\r' then ['\\', 'r']
  else if c = '\t' then ['\\', 't']
  else if c = '\x08' then ['\\', 'b']
  else if c = '\x0c' then ['\\', 'f']
  else if c.toNat < 0x20 then escapeUnit c.toNat
  else match charset with
    | .full => [c]
    | .plain =>
      if c.toNat < 0x7F then [c]
      else if c.toNat < 0x10000 then escapeUnit c.toNat
      else
        let beyond := c.toNat - 0x10000
        escapeUnit (0xD800 + beyond / 0x400) ++ escapeUnit (0xDC00 + beyond % 0x400)

/-- Characters as they stand in a written text. -/
def writeChars (charset : Charset) (text : List Char) : List Char := text.flatMap (writeChar charset)

/-- A text between quotes. -/
def writeText (charset : Charset) (text : String) : List Char :=
  '"' :: writeChars charset text.toList ++ ['"']

/-- A number that is not an integer. -/
def writeDecimal : Decimal → List Char
  | .infinite negative => (if negative then "-Infinity" else "Infinity").toList
  | .undefined => "NaN".toList
  | number => number.text.toList

mutual

/-- A value on one line. -/
def write (charset : Charset) : Value → List Char
  | .null => "null".toList
  | .bool b => (if b then "true" else "false").toList
  | .int n => (toString n).toList
  | .dec d => writeDecimal d
  | .str s => writeText charset s
  | .arr items => '[' :: writeItems charset items ++ [']']
  | .obj fields => '\x7b' :: writeFields charset fields ++ ['\x7d']

/-- Members with a comma and a blank between them. -/
def writeItems (charset : Charset) : List Value → List Char
  | [] => []
  | [item] => write charset item
  | item :: rest => write charset item ++ [',', ' '] ++ writeItems charset rest

/-- Fields with a comma and a blank between them. -/
def writeFields (charset : Charset) : List (String × Value) → List Char
  | [] => []
  | [(name, value)] => writeText charset name ++ [':', ' '] ++ write charset value
  | (name, value) :: rest =>
    writeText charset name ++ [':', ' '] ++ write charset value ++ [',', ' '] ++
      writeFields charset rest

end

/-- A line end and the indentation of a level. -/
def newLine (level : Nat) : List Char := '\n' :: List.replicate (2 * level) ' '

mutual

/-- A value over several lines, at the given level. -/
def writeWide (charset : Charset) (level : Nat) : Value → List Char
  | .arr [] => ['[', ']']
  | .arr items =>
    '[' :: newLine (level + 1) ++ wideItems charset (level + 1) items ++ newLine level ++ [']']
  | .obj [] => ['\x7b', '\x7d']
  | .obj fields =>
    '\x7b' :: newLine (level + 1) ++ wideFields charset (level + 1) fields ++ newLine level ++
      ['\x7d']
  | other => write charset other

/-- Members on lines of their own. -/
def wideItems (charset : Charset) (level : Nat) : List Value → List Char
  | [] => []
  | [item] => writeWide charset level item
  | item :: rest =>
    writeWide charset level item ++ [','] ++ newLine level ++ wideItems charset level rest

/-- Fields on lines of their own. -/
def wideFields (charset : Charset) (level : Nat) : List (String × Value) → List Char
  | [] => []
  | [(name, value)] => writeText charset name ++ [':', ' '] ++ writeWide charset level value
  | (name, value) :: rest =>
    writeText charset name ++ [':', ' '] ++ writeWide charset level value ++ [','] ++
      newLine level ++ wideFields charset level rest

end

/-- A value on one line, every character standing for itself. -/
def line (value : Value) : String := String.ofList (write .full value)

/-- A value on one line, in ASCII. -/
def plainLine (value : Value) : String := String.ofList (write .plain value)

/-- A value over several lines, every character standing for itself. -/
def pages (value : Value) : String := String.ofList (writeWide .full 0 value)

end ProofDump.Json
