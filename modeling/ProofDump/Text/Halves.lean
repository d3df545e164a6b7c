/-!
# Halves of characters

A JSON text can spell one half of a character outside the basic plane without the other. Such a half is
no character, so a text that was read holds it as two: a mark, which is the last code point of all, and
a private one that says which of the 2048 halves it is. Where the mark is a character of the text
itself, it is held with a guard after it, so that every text is held in a way of its own. A text with a
half in it can be compared and passed on, but not be written to a file.
-/

namespace ProofDump.Text

/-- The mark before a half. -/
def halfMark : Char := Char.ofNat 0x10FFFF

/-- What stands after a mark that belongs to no half. -/
def markGuard : Char := Char.ofNat 0x100800

/-- Whether a code unit is half a character. -/
def isHalf (unit : Nat) : Bool := 0xD800 ≤ unit && unit < 0xE000

/-- How a text holds half a character. -/
def halfChars (unit : Nat) : List Char := [halfMark, Char.ofNat (0x100000 + (unit - 0xD800))]

/-- How a text holds a character. -/
def holdChar (c : Char) : List Char := if c = halfMark then [halfMark, markGuard] else [c]

/-- How a text without halves is held. -/
def hold (text : List Char) : List Char := text.flatMap holdChar

/-- The half that two characters hold, if they hold one. -/
def halfOf? (mark c : Char) : Option Nat :=
  if mark = halfMark ∧ 0x100000 ≤ c.toNat ∧ c.toNat < 0x100800 then
    some (c.toNat - 0x100000 + 0xD800)
  else none

/-- Whether a text holds half a character. -/
def hasHalf : List Char → Bool
  | c :: d :: rest => (halfOf? c d).isSome || hasHalf (d :: rest)
  | _ => false

/-- The text without the guards of its marks. -/
def release : List Char → List Char
  | c :: d :: rest =>
    if c = halfMark ∧ d = markGuard then c :: release rest else c :: release (d :: rest)
  | text => text

/-- What a file holds once the text is written to it, unless there is a half in the text. -/
def written? (text : List Char) : Option (List Char) :=
  if hasHalf text then none else some (release text)

end ProofDump.Text
