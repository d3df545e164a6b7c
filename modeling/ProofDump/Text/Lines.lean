/-!
# Lines

Texts are read with one sign for the end of a line: a carriage return, alone or before a line feed,
counts as a line feed. A line keeps the line feed that ends it.
-/

namespace ProofDump.Text

/-- Every end of a line as a line feed. -/
def unifyLineEnds : List Char → List Char
  | [] => []
  | '\r' :: '\n' :: rest => '\n' :: unifyLineEnds rest
  | '\r' :: rest => '\n' :: unifyLineEnds rest
  | c :: rest => c :: unifyLineEnds rest

/-- Cut after every line feed; `line` holds the characters of the line being read, last one first. -/
def linesFrom (line : List Char) : List Char → List (List Char)
  | [] => if line.isEmpty then [] else [line.reverse]
  | '\n' :: rest => ('\n' :: line).reverse :: linesFrom [] rest
  | c :: rest => linesFrom (c :: line) rest

/-- The lines of a text, each with the line feed that ends it. -/
def lines (text : List Char) : List (List Char) := linesFrom [] text

/-- The text that reading a file yields. -/
def fileText (content : String) : List Char := unifyLineEnds content.toList

end ProofDump.Text
