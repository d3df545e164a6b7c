/-!
# Why an operation fails

Dumps are loosely typed, so every operation that looks inside a value can meet one it was not meant
for. A `Fault` names the cause and carries what the report about it needs; `Fault.message` is the one
place where a cause becomes text. The kind of a value ("list", "str", ...) appears here only as the
word that reports use for it.
-/

namespace ProofDump

/-- The cause of a failed operation. -/
inductive Fault where
  /-- A value of this kind has no part of this name. -/
  | noAttribute (kind name : String)
  /-- A table has no entry under this key; the key is written as reports write it. -/
  | noKey (key : String)
  /-- A position lies outside a sequence of this kind. -/
  | outOfBounds (kind : String)
  /-- A sequence of the first kind was asked for the place named by a value of the second kind. -/
  | badIndex (kind index : String)
  /-- A value of this kind has no places to ask for. -/
  | notIndexable (kind : String)
  /-- A value of this kind cannot be walked through. -/
  | notIterable (kind : String)
  /-- A value of this kind has no members to look for. -/
  | notContainer (kind : String)
  /-- A text was searched for a value of this kind. -/
  | notSearchable (kind : String)
  /-- A value of this kind has no length. -/
  | noLength (kind : String)
  /-- A value of this kind cannot be a key. -/
  | unhashable (kind : String)
  /-- Values of these kinds have no order; `relation` is the sign that asked for it. -/
  | unordered (relation left right : String)
  /-- A value of this kind is not a sequence of texts. -/
  | notJoinable
  /-- The member at this place of a sequence of texts has this kind. -/
  | notText (index : Nat) (kind : String)
  /-- A value of the first kind was added to one of the second. -/
  | notAddable (left right : String)
  /-- A value of this kind stands for no integer. -/
  | notNumber (kind : String)
  /-- A text that spells no integer; it is written as reports write it. -/
  | notNumeral (text : String)
  /-- A numeral with this many digits, which are too many. -/
  | longNumeral (digits : Nat)
  /-- A number that is not finite stands for no integer. -/
  | notFinite (name : String)
  /-- A value of this kind has no written form. -/
  | unwritable (kind : String)
  /-- A call that does not fit the parameters. -/
  | badCall (text : String)
  /-- A value of this kind cannot be called. -/
  | notCallable (kind : String)
  /-- Wrongly many values for the names that take them. -/
  | badUnpacking (text : String)
  /-- An argument of the wrong kind; `text` says which. -/
  | badArgument (text : String)
  /-- A value that does not fit where it is used; `text` says why. -/
  | badValue (text : String)
  /-- A stretch of bytes that writes no text. -/
  | badEncoding
  /-- A file whose bytes write no text; the report says where. -/
  | undecodable (report : String)
  /-- Text that has no bytes, since half a character stands in it. -/
  | unencodable
  /-- Text that is not well-formed JSON: the problem, its line, its column and its offset. -/
  | badJson (problem : String) (line column offset : Nat)
  /-- There is no file or directory of this name. -/
  | noFile (path : String)
  /-- The path names a directory where a file is needed. -/
  | isDirectory (path : String)
  /-- The path goes through a file as if it were a directory. -/
  | notDirectory (path : String)
  /-- There is a file of this name already. -/
  | fileExists (path : String)
  /-- A name in the path is longer than names of files can be, or the path is. -/
  | longPath (path : String)
  /-- A path with a null byte in it. -/
  | nullByte
  /-- A name that nothing defines. -/
  | unbound (name : String)
  /-- A failure that was announced with something that cannot announce one. -/
  | badAnnouncement
  /-- A value that the operation itself refuses, with its reason. -/
  | refused (reason : String)
  /-- A value that the operation refuses as of the wrong kind, with its reason. -/
  | refusedKind (reason : String)
  /-- A condition that the operation insists on does not hold. -/
  | violated (condition : String)
  /-- The program ends with this exit status. -/
  | exit (status : Int)
  deriving DecidableEq, Repr

/-- The text that reports print for a cause. -/
def Fault.message : Fault → String
  | noAttribute kind name => "'" ++ kind ++ "' object has no attribute '" ++ name ++ "'"
  | noKey key => key
  | outOfBounds kind => kind ++ " index out of range"
  | badIndex kind index => kind ++ " indices must be integers or slices, not " ++ index
  | notIndexable kind => "'" ++ kind ++ "' object is not subscriptable"
  | notIterable kind => "'" ++ kind ++ "' object is not iterable"
  | notContainer kind => "argument of type '" ++ kind ++ "' is not iterable"
  | notSearchable kind => "'in <string>' requires string as left operand, not " ++ kind
  | noLength kind => "object of type '" ++ kind ++ "' has no len()"
  | unhashable kind => "unhashable type: '" ++ kind ++ "'"
  | unordered relation left right =>
    "'" ++ relation ++ "' not supported between instances of '" ++ left ++ "' and '" ++ right ++ "'"
  | notJoinable => "can only join an iterable"
  | notText index kind =>
    "sequence item " ++ toString index ++ ": expected str instance, " ++ kind ++ " found"
  | notAddable left right =>
    "unsupported operand type(s) for +: '" ++ left ++ "' and '" ++ right ++ "'"
  | notNumber kind =>
    "int() argument must be a string, a bytes-like object or a real number, not '" ++ kind ++ "'"
  | notNumeral text =>
    "invalid literal for int() with base 10: " ++ String.ofList (text.toList.take 200)
  | longNumeral digits =>
    "Exceeds the limit (4300 digits) for integer string conversion: value has " ++
      toString digits ++ " digits; use sys.set_int_max_str_digits() to increase the limit"
  | notFinite name => "cannot convert float " ++ name ++ " to integer"
  | unwritable kind => "Object of type " ++ kind ++ " is not JSON serializable"
  | badCall text => text
  | notCallable kind => "'" ++ kind ++ "' object is not callable"
  | badUnpacking text => text
  | badArgument text => text
  | badValue text => text
  | badEncoding => "invalid bytes"
  | undecodable report => report
  | unencodable => "surrogates not allowed"
  | badJson problem line column offset =>
    problem ++ ": line " ++ toString line ++ " column " ++ toString column ++
      " (char " ++ toString offset ++ ")"
  | noFile path => "[Errno 2] No such file or directory: " ++ path
  | isDirectory path => "[Errno 21] Is a directory: " ++ path
  | notDirectory path => "[Errno 20] Not a directory: " ++ path
  | fileExists path => "[Errno 17] File exists: " ++ path
  | longPath path => "[Errno 36] File name too long: " ++ path
  | nullByte => "embedded null byte"
  | unbound name => "name '" ++ name ++ "' is not defined"
  | badAnnouncement => "exceptions must derive from BaseException"
  | refused reason => reason
  | refusedKind reason => reason
  | violated condition => condition
  | exit status => toString status

end ProofDump
