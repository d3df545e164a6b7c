import ProofDump.Value.Access
import ProofDump.Value.Integer

/-!
# Positions and ranges in source files

A dump counts bytes from the start of the source; reports count lines and columns from one. Between
the two stands the list of the offsets at which lines start. A position is on the last line of the
longest beginning of that list with no start after it, and before all lines it counts as on the first.
Where a dump lists something that is no offset, only a position that needs to be compared with it is a
fault.
-/

namespace ProofDump

/-- A line and a column, both counted from one. -/
structure FilePos where
  line : Int
  column : Int
  deriving DecidableEq, Repr

namespace FilePos

/-- Earlier in the file. -/
def before (a b : FilePos) : Bool := a.line < b.line || (a.line == b.line && a.column < b.column)

/-- Not later in the file. -/
def atMost (a b : FilePos) : Bool := a.before b || a == b

/-- The position of an offset. -/
def ofOffset (lines : List Int) (offset : Int) : FilePos :=
  let passed := lines.takeWhile (· ≤ offset)
  ⟨max 1 passed.length, offset - passed.getLast?.getD 0 + 1⟩

/-- A position as reports show it. -/
def shown (pos : FilePos) : String :=
  "FilePos(line=" ++ toString pos.line ++ ", column=" ++ toString pos.column ++ ")"

/-- A position as written to files. -/
def written (pos : FilePos) : Value := .obj [("line", .int pos.line), ("column", .int pos.column)]

/-- The numbers of a position, in the order in which they are written. -/
def numbers (pos : FilePos) : List Value := [.int pos.line, .int pos.column]

end FilePos

/-- The offsets at which the lines of a file start, as a dump lists them: those before the first entry
that is no offset, and the entries from there on. -/
structure LineStarts where
  starts : List Int
  rest : List Value := []

namespace LineStarts

/-- The line starts in a list of values. -/
def ofValues : List Value → LineStarts
  | [] => ⟨[], []⟩
  | value :: rest =>
    match value.integer? with
    | some start => let lines := ofValues rest; { lines with starts := start :: lines.starts }
    | none => ⟨[], value :: rest⟩

/-- Number of lines. -/
def size (lines : LineStarts) : Nat := lines.starts.length + lines.rest.length

/-- The position of an offset; comparing it with an entry that is no offset is a fault. -/
def position (lines : LineStarts) (offset : Int) : Except Fault FilePos :=
  match lines.rest.head?, lines.starts.all (· ≤ offset) with
  | some entry, true => .error (.unordered ">" entry.kind (Value.int offset).kind)
  | _, _ => .ok (.ofOffset lines.starts offset)

/-- The position of a loaded offset, which must be an integer already. -/
def positionOf (lines : LineStarts) (offset : Value) : Except Fault FilePos :=
  match offset.integer? with
  | some offset => lines.position offset
  | none => .error (.unordered ">" (Value.int 0).kind offset.kind)

end LineStarts

/-- Two offsets of a dump as they were loaded: integers, or something else in their place. -/
structure Span where
  start : Value
  stop : Value

/-- The span that the part `range` of a loaded record holds, if it holds one. -/
def Span.ofValue (value : Value) : Except Fault (Option Span) :=
  match value with
  | .null => .ok none
  | .arr [start, stop] => .ok (some ⟨start, stop⟩)
  | other => .error (.noAttribute other.kind "start")

/-- From one position to another. -/
structure FileRange where
  start : FilePos
  stop : FilePos
  deriving DecidableEq, Repr

namespace FileRange

/-- The other range lies within this one. -/
def covers (range other : FileRange) : Bool :=
  range.start.atMost other.start && other.stop.atMost range.stop

/-- The range of the whole file, whose end is the start of a line after the last. -/
def whole (lines : LineStarts) : FileRange := ⟨⟨1, 1⟩, ⟨lines.size + 1, 1⟩⟩

/-- The position of an end of a span, or the given one if that end is open. -/
def endOf (lines : LineStarts) (offset : Value) (otherwise : FilePos) : Except Fault FilePos := do
  if offset.isNull then return otherwise else lines.position (← offset.toInteger)

/-- The range of a span; without one it is the whole file. -/
def ofSpan (lines : LineStarts) (span : Option Span) : Except Fault FileRange :=
  match span with
  | none => .ok (whole lines)
  | some span => do
    let start ← endOf lines span.start (whole lines).start
    let stop ← endOf lines span.stop (whole lines).stop
    return ⟨start, stop⟩

/-- The range of a loaded part. -/
def ofValue (lines : LineStarts) (value : Value) : Except Fault FileRange := do
  ofSpan lines (← Span.ofValue value)

/-- Earlier start, and of equal starts the stop that is not earlier. Equal ranges stand in this
relation both ways. -/
def outerBefore (a b : FileRange) : Bool :=
  a.start.before b.start || (a.start == b.start && b.stop.atMost a.stop)

/-- Earlier start, and of equal starts the earlier stop. -/
def innerBefore (a b : FileRange) : Bool :=
  a.start.before b.start || (a.start == b.start && a.stop.before b.stop)

/-- The numbers of a range, in the order in which they are written. -/
def numbers (range : FileRange) : List Value := range.start.numbers ++ range.stop.numbers

/-- A range as reports show it under a name. -/
def shown (name : String) (range : FileRange) : String :=
  name ++ "(start=" ++ range.start.shown ++ ", stop=" ++ range.stop.shown ++ ")"

end FileRange

end ProofDump
