import ProofDump.Position
import ProofDump.Slice

/-!
# Parts of loaded records

The type of a symbol, spans made of loaded values, and the part of a sequence that a span covers.
-/

namespace ProofDump.Loaded

/-- The type of a symbol: the full one if it was written, else the one to fall back on. -/
def symbolType (symbol : Value) : Except Fault Value := do
  let full ← symbol.attr "type_full"
  if full.present then return full else symbol.attr "type_fallback"

/-- The span of the first two members of a sequence. -/
def spanOf (value : Value) : Except Fault Span := do
  let start ← value.index 0
  let stop ← value.index 1
  return ⟨start, stop⟩

/-- The span of two values, no more and no fewer. -/
def spanOfPair (value : Value) : Except Fault Span :=
  match value with
  | .arr [start, stop] => .ok ⟨start, stop⟩
  | _ => .error (.badCall "a span has a start and a stop")

/-- The part of a sequence that a span covers. -/
def covered (span : Span) (sequence : Value) : Except Fault Value :=
  match sequence with
  | .arr items => do
    return .arr (openSlice items (← span.start.sliceEnd) (← span.stop.sliceEnd))
  | .str s => do
    return .str (String.ofList (openSlice s.toList (← span.start.sliceEnd) (← span.stop.sliceEnd)))
  | .obj _ => .error (.unhashable "slice")
  | other => .error (.notIndexable other.kind)

end ProofDump.Loaded
