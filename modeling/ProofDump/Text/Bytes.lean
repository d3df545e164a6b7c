import ProofDump.Slice

/-!
# Texts as bytes

Positions in dumps count bytes of the encoded source. A stretch of bytes of a text is described by the
characters that lie in it: those wholly inside, and whether one is torn at an end. Positions are
clamped to the text, and a negative one counts from its end.
-/

namespace ProofDump.Text

/-- Number of bytes of a text. -/
def byteLength : List Char → Nat
  | [] => 0
  | c :: rest => c.utf8Size + byteLength rest

/-- The characters wholly within the bytes from `start` to `stop` of a text that begins at byte
`offset`, and whether a character is only partly there. -/
def cutBytes (start stop offset : Nat) : List Char → List Char × Bool
  | [] => ([], false)
  | c :: rest =>
    let next := offset + c.utf8Size
    let (kept, torn) := cutBytes start stop next rest
    if start ≤ offset ∧ next ≤ stop then (c :: kept, torn)
    else if start < stop ∧ start < next ∧ offset < stop then (kept, true)
    else (kept, torn)

/-- The bytes of a text from one position to another, and whether a character is torn. -/
def sliceBytes (start stop : Int) (text : List Char) : List Char × Bool :=
  let length := byteLength text
  cutBytes (clamp length start) (clamp length stop) 0 text

/-- The text of a stretch of bytes, if no character is torn. -/
def exactSlice? (start stop : Int) (text : List Char) : Option (List Char) :=
  match sliceBytes start stop text with
  | (kept, false) => some kept
  | (_, true) => none

end ProofDump.Text
