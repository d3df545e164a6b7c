import ProofDump.Fault
import ProofDump.Text.Search

/-!
# Paths

A path is a list of names below a starting point: the current directory, or the root when it is
absolute. Two slashes at the start are kept apart from one, and more than two count as one. Empty names
and single dots say nothing and are dropped. A path without names is written as a dot. The last name of
a path splits into stem and suffix at its last dot, unless that dot is its first or last character.
-/

namespace ProofDump

/-- Names below the current directory, or below the root. -/
structure Path where
  /-- The number of slashes at the start: none below the current directory, one or two below the root. -/
  slashes : Nat
  parts : List String
  deriving DecidableEq, Repr

namespace Path

/-- The path of names below the current directory. -/
def relative (names : List String) : Path := ⟨0, names⟩

/-- Whether a path starts at the root. -/
def absolute (path : Path) : Bool := path.slashes ≠ 0

/-- The number of slashes that a text with so many at its start gives a path. -/
def leadingSlashes (count : Nat) : Nat := if count ≤ 2 then count else 1

/-- The names in a text with slashes between them. -/
def partsOf (text : String) : List String :=
  (Text.splitAt '/' text).filter fun part => part ≠ "" ∧ part ≠ "."

/-- The path that a text spells. -/
def ofText (text : String) : Path :=
  ⟨leadingSlashes (text.toList.takeWhile (· = '/')).length, partsOf text⟩

/-- A path as text. -/
def text (path : Path) : String :=
  if path.absolute then
    String.ofList (List.replicate path.slashes '/') ++ "/".intercalate path.parts
  else if path.parts.isEmpty then "."
  else "/".intercalate path.parts

/-- The second path below the first, or the second alone if it is absolute. -/
def join (path below : Path) : Path :=
  if below.absolute then below else ⟨path.slashes, path.parts ++ below.parts⟩

/-- The names that a path spells from the root when it starts at the given ones. -/
def namesFrom (path : Path) (start : List String) : List String :=
  if path.absolute then path.parts else start ++ path.parts

/-- The path that several texts spell one below the other. -/
def ofTexts (texts : List String) : Path :=
  texts.foldl (fun path text => path.join (ofText text)) (relative [])

/-- The last name. -/
def name (path : Path) : String := path.parts.getLast?.getD ""

/-- The directory that the last name is in. -/
def parent (path : Path) : Path := ⟨path.slashes, path.parts.dropLast⟩

/-- A name without its suffix, and the suffix. -/
def splitSuffix (name : List Char) : List Char × List Char :=
  let tail := (name.reverse.takeWhile (· ≠ '.')).reverse
  let stem := name.take (name.length - (tail.length + 1))
  if tail.isEmpty || tail.length = name.length || stem.isEmpty then (name, [])
  else (stem, '.' :: tail)

/-- The last name without its suffix. -/
def stem (path : Path) : String := String.ofList (splitSuffix path.name.toList).1

/-- The path with another suffix in place of the one it has; only a path with a name has one. -/
def withSuffix (path : Path) (suffix : String) : Except Fault Path :=
  if path.name = "" then .error (.badValue ("'" ++ path.text ++ "' has an empty name"))
  else .ok ⟨path.slashes, path.parts.dropLast ++ [path.stem ++ suffix]⟩

end Path

/-- Put one text below another with a slash between them; a text that starts with a slash stands
alone. -/
def joinPathText (above below : String) : String :=
  if below.toList.head? = some '/' then below
  else if above = "" ∨ above.toList.getLast? = some '/' then above ++ below
  else above ++ "/" ++ below

end ProofDump
