import ProofDump.Text.Casing

/-!
# Words with capitals

In a title every word starts with the title form of its first letter and goes on in small letters; a
word is a run of characters that have case. A capital sigma at the end of a word becomes the final one.
-/

namespace ProofDump.Text

/-- Whether the nearest character that is not passed over has case. -/
def nextHasCase (text : List Char) : Bool := (text.dropWhile isPassed).head?.any isCased

/-- The small form of a character between the text before it, last character first, and the text after
it. -/
def lowerAt (before : List Char) (c : Char) (after : List Char) : List Char :=
  if c = 'Σ' then
    if nextHasCase before && !nextHasCase after then ['ς'] else ['σ']
  else lowerForm c

/-- Capitalise the words of a text after the text before it, last character first. -/
def titleFrom (before : List Char) : List Char → List Char
  | [] => []
  | c :: rest =>
    let form := if before.head?.any isCased then lowerAt before c rest else titleForm c
    form ++ titleFrom (c :: before) rest

/-- A text with its words capitalised. -/
def title (text : List Char) : List Char := titleFrom [] text

end ProofDump.Text
