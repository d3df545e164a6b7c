import ProofDump.Text.Halves
import ProofDump.Text.Printable

/-!
# Quoted text

How reports show a text: between single quotes, or between double quotes when it holds a single quote
and no double one; the quote itself, the backslash, halves of characters and everything unprintable are
escaped.
-/

namespace ProofDump.Text

/-- The lower-case hexadecimal digits of `n`, at least `width` of them. -/
def hexadecimal (width n : Nat) : List Char :=
  let digits := Nat.toDigits 16 n
  List.replicate (width - digits.length) '0' ++ digits

/-- A character as it stands between quotes of the given sort. -/
def quotedChar (mark c : Char) : List Char :=
  if c = mark ∨ c = '\\' then ['\\', c]
  else if c = '\n' then ['\\', 'n']
  else if c = '\r' then ['\\', 'r']
  else if c = '\t' then ['\\', 't']
  else if isPrintable c then [c]
  else if c.toNat < 0x100 then ['\\', 'x'] ++ hexadecimal 2 c.toNat
  else if c.toNat < 0x10000 then ['\\', 'u'] ++ hexadecimal 4 c.toNat
  else ['\\', 'U'] ++ hexadecimal 8 c.toNat

/-- Characters as they stand between quotes of the given sort. -/
def quotedChars (mark : Char) : List Char → List Char
  | [] => []
  | [c] => quotedChar mark c
  | c :: d :: rest =>
    match halfOf? c d with
    | some unit => ['\\', 'u'] ++ hexadecimal 4 unit ++ quotedChars mark rest
    | none => quotedChar mark c ++ quotedChars mark (d :: rest)

/-- The text between quotes. -/
def quoted (text : String) : String :=
  let letters := text.toList
  let mark := if letters.contains '\'' && !letters.contains '"' then '"' else '\''
  String.ofList (mark :: quotedChars mark letters ++ [mark])

end ProofDump.Text
