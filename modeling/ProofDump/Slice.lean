/-!
# Slices

Part of a list between two positions. A position counts from the end when negative, is clamped to the
list, and may be left open.
-/

namespace ProofDump

/-- A position within `length` places, counted from the end when negative, and clamped. -/
def clamp (length : Nat) (position : Int) : Nat :=
  if position < 0 then (position + length).toNat else min position.toNat length

/-- The members between two positions. -/
def slice {α : Type} (members : List α) (start stop : Int) : List α :=
  (members.take (clamp members.length stop)).drop (clamp members.length start)

/-- The members between two positions, of which either may be open. -/
def openSlice {α : Type} (members : List α) (start stop : Option Int) : List α :=
  slice members (start.getD 0) (stop.getD members.length)

end ProofDump
