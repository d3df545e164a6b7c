import ProofDump.Fault
import ProofDump.Slice
import ProofDump.Text.Utf8

/-!
# Contents of files

A file holds bytes. Where a text is asked for they have to write one, and where a stretch of them is asked
for, what writes no character is left out.
-/

namespace ProofDump

/-- What a file holds. -/
structure Content where
  bytes : List UInt8
  deriving DecidableEq, Repr

namespace Content

/-- The content of a file that a text was written to. -/
def ofText (text : String) : Content := ⟨Text.encode text.toList⟩

instance : Coe String Content := ⟨ofText⟩

/-- The text that the content writes. -/
def text (content : Content) : Except Fault String :=
  match Text.decode content.bytes with
  | .ok text => .ok (String.ofList text)
  | .error defect => .error (.undecodable defect.report)

/-- The characters that a stretch of the bytes writes. -/
def stretch (content : Content) (start stop : Int) : List Char :=
  Text.decodeSound (slice content.bytes start stop)

end Content

end ProofDump
