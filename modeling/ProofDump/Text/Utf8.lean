import ProofDump.Text.Quoted

/-!
# Texts as bytes in UTF-8

The bytes that write a text, and the text that bytes write. Bytes are taken one after the other: the first
byte of a character tells the ranges of its other bytes, and these are owed until they have come. Bytes that
come to no character are flawed. They are one byte that begins no character, or the beginning of one that
the next byte does not go on with or that nothing comes after.
-/

namespace ProofDump.Text

/-- The bytes that write a text. -/
def encode (text : List Char) : List UInt8 := text.flatMap String.utf8EncodeChar

/-! ### Taking bytes apart -/

/-- Why bytes write no character. -/
inductive Flaw where
  /-- No character begins with the byte. -/
  | start
  /-- The byte after them does not go on with the character that they begin. -/
  | continuation
  /-- There is no byte after them, and they are no whole character. -/
  | ending
  deriving DecidableEq, Repr

/-- What bytes are taken apart into. -/
inductive Piece where
  | char (c : Char)
  /-- Bytes that write no character. -/
  | flawed (bytes : List UInt8) (flaw : Flaw)
  deriving DecidableEq, Repr

/-- A character that has begun: its bytes so far, the number that they write, and the ranges of the bytes
that are owed. -/
structure Begun where
  bytes : List UInt8
  number : Nat
  owed : List (Nat × Nat)
  deriving DecidableEq, Repr

/-- The range of a byte that is not the first of its character. -/
def follower : Nat × Nat := (0x80, 0xBF)

/-- The range of the second byte of a character that begins with a byte. It is smaller where the number could
be written with fewer bytes, would be half a pair, or would be too large. -/
def second (first : Nat) : Nat × Nat :=
  if first = 0xE0 then (0xA0, 0xBF)
  else if first = 0xED then (0x80, 0x9F)
  else if first = 0xF0 then (0x90, 0xBF)
  else if first = 0xF4 then (0x80, 0x8F)
  else follower

/-- The character that begins with a byte, if one does. -/
def begun? (byte : UInt8) : Option Begun :=
  let n := byte.toNat
  if n < 0x80 then some ⟨[byte], n, []⟩
  else if n < 0xC2 then none
  else if n < 0xE0 then some ⟨[byte], n - 0xC0, [second n]⟩
  else if n < 0xF0 then some ⟨[byte], n - 0xE0, [second n, follower]⟩
  else if n < 0xF5 then some ⟨[byte], n - 0xF0, [second n, follower, follower]⟩
  else none

/-- A character to which nothing is owed is a piece; any other stays open. -/
def Begun.settle (begun : Begun) : List Piece × Option Begun :=
  if begun.owed.isEmpty then ([.char (Char.ofNat begun.number)], none) else ([], some begun)

/-- Begin with a byte. -/
def feedFirst (byte : UInt8) : List Piece × Option Begun :=
  match begun? byte with
  | some begun => begun.settle
  | none => ([.flawed [byte] .start], none)

/-- Go on with a byte: the pieces that it ends, and the character that is open after it. -/
def feed (opened : Option Begun) (byte : UInt8) : List Piece × Option Begun :=
  match opened with
  | some ⟨bytes, number, (low, high) :: owed⟩ =>
    if low ≤ byte.toNat ∧ byte.toNat ≤ high then
      Begun.settle ⟨bytes ++ [byte], number * 64 + (byte.toNat - 0x80), owed⟩
    else
      let (pieces, next) := feedFirst byte
      (.flawed bytes .continuation :: pieces, next)
  | _ => feedFirst byte

/-- The pieces of bytes that come after the beginning of a character. -/
def piecesFrom (opened : Option Begun) : List UInt8 → List Piece
  | [] => (opened.map fun begun => .flawed begun.bytes .ending).toList
  | byte :: rest =>
    let (pieces, next) := feed opened byte
    pieces ++ piecesFrom next rest

/-- The pieces of bytes. -/
def pieces (bytes : List UInt8) : List Piece := piecesFrom none bytes

/-! ### Decoding -/

/-- The first flaw of bytes: how many bytes are before it, the bytes that have it, and what it is. -/
structure Defect where
  offset : Nat
  bytes : List UInt8
  flaw : Flaw
  deriving DecidableEq, Repr

/-- A flaw as reports name it. -/
def Flaw.name : Flaw → String
  | start => "invalid start byte"
  | continuation => "invalid continuation byte"
  | ending => "unexpected end of data"

/-- The report about a defect. -/
def Defect.report (defect : Defect) : String :=
  let place := match defect.bytes with
    | [byte] => "byte 0x" ++ String.ofList (hexadecimal 2 byte.toNat) ++ " in position " ++ toString defect.offset
    | bytes =>
      "bytes in position " ++ toString defect.offset ++ "-" ++ toString (defect.offset + bytes.length - 1)
  "'utf-8' codec can't decode " ++ place ++ ": " ++ defect.flaw.name

/-- The text of pieces that come after as many bytes, or the first defect. -/
def textFrom (offset : Nat) : List Piece → Except Defect (List Char)
  | [] => .ok []
  | .char c :: rest =>
    match textFrom (offset + c.utf8Size) rest with
    | .ok text => .ok (c :: text)
    | .error defect => .error defect
  | .flawed bytes flaw :: _ => .error ⟨offset, bytes, flaw⟩

/-- The text that bytes write, or their first defect. -/
def decode (bytes : List UInt8) : Except Defect (List Char) := textFrom 0 (pieces bytes)

/-- The character of a piece. -/
def Piece.char? : Piece → Option Char
  | char c => some c
  | flawed _ _ => none

/-- The characters that bytes write, without what is flawed. -/
def decodeSound (bytes : List UInt8) : List Char := (pieces bytes).filterMap Piece.char?

end ProofDump.Text
