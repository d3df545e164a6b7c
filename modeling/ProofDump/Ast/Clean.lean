import ProofDump.Text.Blank
import ProofDump.Text.Search
import ProofDump.Value.Basic

/-!
# Clean proof texts

A proof cut out of a source is cleaned in five steps: what stands before its first word is dropped,
line comments go, block comments go, everything from the first line that starts a new command goes,
and the ends are trimmed. Comments are found by their marks alone, line comments first.
-/

namespace ProofDump.Ast

/-- Characters that may stand before the first word of a proof. -/
def isLead (c : Char) : Bool := c = ' ' || c = '\t' || c = '\n' || c = ':' || c = '='

/-- Drop line comments; in one (`inside`), everything up to the end of the line is dropped. -/
def dropLineComments (inside : Bool) : List Char → List Char
  | [] => []
  | c :: rest =>
    if inside then
      if c = '\n' then c :: dropLineComments false rest else dropLineComments true rest
    else if c = '-' ∧ rest.head? = some '-' then dropLineComments true rest
    else c :: dropLineComments false rest

/-- What follows the end of a block comment. -/
def afterBlock? : List Char → Option (List Char)
  | '-' :: '/' :: rest => some rest
  | _ :: rest => afterBlock? rest
  | [] => none

/-- What follows the end of a block comment is shorter than the comment. -/
theorem length_afterBlock? {text rest : List Char} (h : afterBlock? text = some rest) :
    rest.length < text.length := by
  fun_induction afterBlock? text with
  | case1 =>
    cases h
    simp only [List.length_cons]
    omega
  | case2 _ _ _ ih =>
    have shorter := ih h
    simp only [List.length_cons]
    omega
  | case3 => simp at h

/-- Drop block comments that are closed; one ends at the first closing mark after its opening one. -/
def dropBlocks : List Char → List Char
  | [] => []
  | '/' :: '-' :: body =>
    match _hblock : afterBlock? body with
    | some after => dropBlocks after
    | none => '/' :: dropBlocks ('-' :: body)
  | c :: rest => c :: dropBlocks rest
termination_by text => text.length
decreasing_by
  · have := length_afterBlock? _hblock
    simp
    omega
  · simp
  · simp

/-- Beginnings of lines with which a new command starts. -/
def commandStarts : List String :=
  ["theorem", "lemma", "instance", "variable", "section", "namespace", "def", "abbrev", "@[", "#"]

/-- Whether a line starts a new command. -/
def startsCommand (line : List Char) : Bool :=
  commandStarts.any fun start => Text.startsWith start.toList (Text.strip line)

/-- The lines before the first that starts a new command. -/
def beforeCommand (text : List Char) : List Char :=
  ['\n'].intercalate ((Text.split ['\n'] text).takeWhile fun line => !startsCommand line)

/-- The clean form of a proof text. -/
def clean (text : List Char) : List Char :=
  let body := Text.strip (text.dropWhile isLead)
  Text.strip (beforeCommand (dropBlocks (dropLineComments false body)))

/-- The clean form of a value that should be a text; what does not count as present is empty. -/
def cleanValue (value : Value) : Except Fault String :=
  if !value.truthy then .ok ""
  else match value with
    | .str s => .ok (String.ofList (clean s.toList))
    | _ => .error (.badArgument "expected string or bytes-like object")

end ProofDump.Ast
