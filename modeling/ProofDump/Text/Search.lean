/-!
# Finding and replacing parts of texts

Plain searches on lists of characters: whether a text starts with another, where a part first occurs,
cutting at every occurrence, and replacing them from left to right.
-/

namespace ProofDump.Text

/-- What follows `pattern` at the start of `text`, if it stands there. -/
def dropPrefix? (pattern text : List Char) : Option (List Char) :=
  match pattern, text with
  | [], rest => some rest
  | _ :: _, [] => none
  | p :: pattern, c :: text => if p = c then dropPrefix? pattern text else none

/-- Whether `text` starts with `pattern`. -/
def startsWith (pattern text : List Char) : Bool := (dropPrefix? pattern text).isSome

/-- What stands before and after the first occurrence of a part. -/
def cutFirst? (pattern : List Char) (text : List Char) : Option (List Char × List Char) :=
  match dropPrefix? pattern text with
  | some rest => some ([], rest)
  | none =>
    match text with
    | [] => none
    | c :: rest => (cutFirst? pattern rest).map fun (before, after) => (c :: before, after)

/-- Whether a part occurs in a text. -/
def contains (pattern text : List Char) : Bool := (cutFirst? pattern text).isSome

/-- Cut at every occurrence of a part that is not empty; `piece` holds the characters since the last
cut, last one first, and `skip` the number of characters of an occurrence still to be dropped. -/
def splitFrom (pattern : List Char) (piece : List Char) (skip : Nat) :
    List Char → List (List Char)
  | [] => [piece.reverse]
  | c :: rest =>
    match skip with
    | skip + 1 => splitFrom pattern piece skip rest
    | 0 =>
      if startsWith pattern (c :: rest) then
        piece.reverse :: splitFrom pattern [] (pattern.length - 1) rest
      else splitFrom pattern (c :: piece) 0 rest

/-- The pieces between the occurrences of a part that is not empty. -/
def split (pattern text : List Char) : List (List Char) := splitFrom pattern [] 0 text

/-- Cut a text at every occurrence of a character. -/
def splitAt (mark : Char) (text : String) : List String :=
  (split [mark] text.toList).map String.ofList

/-- Replace every occurrence of a part that is not empty. -/
def replace (pattern replacement text : List Char) : List Char :=
  replacement.intercalate (split pattern text)

end ProofDump.Text
