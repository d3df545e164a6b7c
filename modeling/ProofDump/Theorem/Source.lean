import ProofDump.Position
import ProofDump.Project.Source
import ProofDump.Slice
import ProofDump.Text.Blank
import ProofDump.Text.Bytes
import ProofDump.Text.Lines
import ProofDump.Value.Order

/-!
# Sources of theorems

The text of a range of the source of a module, the words of a line, and the name of a declaration
without what marks it as private.
-/

namespace ProofDump

namespace Theorem

/-! ### Texts of ranges -/

/-- The text of a line between two columns; an end at minus one is the end of the line. -/
def linePart (line : List Char) (start stop : Int) : Except Fault (List Char) :=
  let stop := if stop = -1 then (Text.byteLength line : Int) else stop
  match Text.exactSlice? start stop line with
  | some part => .ok part
  | none => .error .badEncoding

/-- The text of a line between two columns that may be something else; an end that is null is open. -/
def partOf (line start stop : Value) : Except Fault String := do
  let .str text := line | throw (.badArgument "encoding without a string argument")
  let stop := if stop.same (.int (-1)) then .null else stop
  let (start, stop) := ((← start.sliceEnd).getD 0, (← stop.sliceEnd).getD (-1))
  return String.ofList (← linePart text.toList start stop)

/-- The text of a range of lines. The column at which a range stops belongs to it. -/
def rangeText (lines : List (List Char)) (range : FileRange) : Except Fault (List Char) :=
  match slice lines (range.start.line - 1) range.stop.line with
  | [] => .ok []
  | [line] => linePart line (range.start.column - 1) range.stop.column
  | first :: second :: rest => do
    let start ← linePart first (range.start.column - 1) (-1)
    let middle := (second :: rest).dropLast
    let stop ← linePart ((second :: rest).getLast (by simp)) 0 range.stop.column
    return start ++ middle.flatten ++ stop

/-- The lines of a source. They are read piece by piece, so no report says where bytes write no text. -/
def sourceLines (tree : FileTree) (path : String) : Except Fault (List (List Char)) :=
  match tree.read path with
  | .ok content => .ok (Text.lines (Text.fileText content))
  | .error (.undecodable _) => .error .badEncoding
  | .error fault => .error fault

/-- The text of a range of the source of a module. -/
def sourceText (files : Option FileTree) (root : String) (module : Value) (range : FileRange) :
    Except Fault (List Char) := do
  match ← Project.sourceOf? files root module true, files with
  | some path, some tree => rangeText (← sourceLines tree path) range
  | _, _ => throw .badAnnouncement

/-! ### Words and names -/

/-- The word of a line at a place, counted from the end when negative. -/
def word? (line : Value) (place : Int) : Except Fault (Option String) :=
  match line with
  | .str s =>
    let words := Text.words s.toList
    let place := if place < 0 then place + words.length else place
    if words.length ≤ place then .ok none
    else match Value.place words place with
      | some word => .ok (some (String.ofList word))
      | none => .error (.outOfBounds "list")
  | other => .error (.noAttribute other.kind "strip")

/-- The word of a line at a place that may be no integer. A number can only be found to lie behind all
words. -/
def wordAt? (line place : Value) : Except Fault (Option String) :=
  match line, place with
  | _, .int place => word? line place
  | _, .bool place => word? line place.toNat
  | .str s, .dec number =>
    match number.place.compare? (.quotient (Text.words s.toList).length 1) with
    | some .gt | some .eq => .ok none
    | _ => .error (.badIndex "list" place.kind)
  | .str _, other => .error (.unordered "<" other.kind (Value.int 0).kind)
  | other, _ => .error (.noAttribute other.kind "strip")

/-- The members of a sequence from a place on. -/
def dropItems (value : Value) (place : Nat) : Except Fault Value :=
  match value with
  | .arr items => .ok (.arr (items.drop place))
  | .str s => .ok (.str (String.ofList (s.toList.drop place)))
  | other => .error (.notIndexable other.kind)

/-- The name of a declaration of a module, joined with dots; of a private one, what follows the marker,
the module and a number. -/
def name? (module name : Value) : Except Fault (Option String) := do
  if name.isNull then return none
  if (← name.loadedLength) = 0 then return none
  if (← name.loadedIndex 0).same (.str "_private") then
    let marked := (← module.length) + 2
    return some (← (← dropItems name marked).joinWith ".")
  else return some (← name.joinWith ".")

end Theorem

end ProofDump
