/-!
# Blanks

The characters that separate words, and what follows from them: trimming a text at its ends and
cutting it into words.
-/

namespace ProofDump.Text

/-- Whether a character is a blank: a space of any width, a tabulator, or a character that ends a
line, a page, a file, a group, a record or a unit. -/
def isBlank (c : Char) : Bool :=
  let n := c.toNat
  (0x09 ≤ n && n ≤ 0x0D) || (0x1C ≤ n && n ≤ 0x20) || n == 0x85 || n == 0xA0 || n == 0x1680 ||
    (0x2000 ≤ n && n ≤ 0x200A) || n == 0x2028 || n == 0x2029 || n == 0x202F || n == 0x205F ||
    n == 0x3000

/-- Drop the blanks at the start. -/
def stripLeft (text : List Char) : List Char := text.dropWhile isBlank

/-- Drop the blanks at the end. -/
def stripRight (text : List Char) : List Char := (text.reverse.dropWhile isBlank).reverse

/-- Drop the blanks at both ends. -/
def strip (text : List Char) : List Char := stripRight (stripLeft text)

/-- Cut into words; `word` holds the letters of the word being read, last one first. -/
def wordsFrom (word : List Char) : List Char → List (List Char)
  | [] => if word.isEmpty then [] else [word.reverse]
  | c :: rest =>
    if isBlank c then
      if word.isEmpty then wordsFrom [] rest else word.reverse :: wordsFrom [] rest
    else wordsFrom (c :: word) rest

/-- The maximal runs of characters that are not blank. -/
def words (text : List Char) : List (List Char) := wordsFrom [] text

end ProofDump.Text
