import RenderLayout.Json.Basic
import RenderLayout.Number.Format
import RenderLayout.Text.Quoted

/-!
What can be wrong with a JSON text or with the value that it holds, and where.
-/

namespace RenderLayout.Json

inductive Cause where
  | endInList
  | endInObject
  | endInString
  | endInValue
  | expectedColon
  | expectedCommaOrListEnd
  | expectedCommaOrObjectEnd
  | expectedWord
  | expectedValue
  | invalidEscape
  | invalidNumber
  | numberOutOfRange
  | controlCharacter
  | keyNotString
  | loneSurrogate
  | halfSurrogatePair
  | trailingComma
  | trailingCharacters
  | tooDeep
  /-- A value of another type than the one that is wanted. -/
  | wrongType (found : Json) (expected : String)
  /-- A value of the right type that is out of its range. -/
  | wrongValue (found : Json) (expected : String)
  | wrongLength (length : Nat) (expected : String)
  | unknownName (found : String) (known : List String)
  | missingField (key : String)
  | duplicateField (key : String)
  /-- What the reader of a text within the value says about it. -/
  | rejected (reason : String)

/-- A value in a message. -/
def describe : Json → String
  | .null => "null"
  | .bool value => s!"boolean `{value}`"
  | .int n => s!"integer `{n}`"
  | .float x => "floating point `" ++ String.ofList (Number.Format.scientific.write x) ++ "`"
  | .str s => "string " ++ Text.quoted s
  | .arr _ => "sequence"
  | .obj _ => "map"

def backticked (s : String) : String := "`" ++ s ++ "`"

/-- The names that may stand in a place, in a message. -/
def listNames : List String → String
  | [] => "there are no variants"
  | [name] => "expected " ++ backticked name
  | [one, two] => "expected " ++ backticked one ++ " or " ++ backticked two
  | names => "expected one of " ++ ", ".intercalate (names.map backticked)

def Cause.message : Cause → String
  | .endInList => "EOF while parsing a list"
  | .endInObject => "EOF while parsing an object"
  | .endInString => "EOF while parsing a string"
  | .endInValue => "EOF while parsing a value"
  | .expectedColon => "expected `:`"
  | .expectedCommaOrListEnd => "expected `,` or `]`"
  | .expectedCommaOrObjectEnd => "expected `,` or `\x7d`"
  | .expectedWord => "expected ident"
  | .expectedValue => "expected value"
  | .invalidEscape => "invalid escape"
  | .invalidNumber => "invalid number"
  | .numberOutOfRange => "number out of range"
  | .controlCharacter => "control character (\\u0000-\\u001F) found while parsing a string"
  | .keyNotString => "key must be a string"
  | .loneSurrogate => "lone leading surrogate in hex escape"
  | .halfSurrogatePair => "unexpected end of hex escape"
  | .trailingComma => "trailing comma"
  | .trailingCharacters => "trailing characters"
  | .tooDeep => "recursion limit exceeded"
  | .wrongType found expected => "invalid type: " ++ describe found ++ ", expected " ++ expected
  | .wrongValue found expected => "invalid value: " ++ describe found ++ ", expected " ++ expected
  | .wrongLength length expected => s!"invalid length {length}, expected {expected}"
  | .unknownName found known => "unknown variant `" ++ found ++ "`, " ++ listNames known
  | .missingField key => "missing field `" ++ key ++ "`"
  | .duplicateField key => "duplicate field `" ++ key ++ "`"
  | .rejected reason => reason

/-- A place in a text: lines count from one, and columns count the bytes before the place. -/
structure Place where
  line : Nat
  column : Nat
  deriving DecidableEq, Repr

namespace Place

def start : Place := ⟨1, 0⟩

/-- Behind the character. -/
def next (place : Place) (c : Char) : Place :=
  if c = '\n' then ⟨place.line + 1, 0⟩ else ⟨place.line, place.column + c.utf8Size⟩

/-- Behind the first byte of the character. -/
def nextByte (place : Place) (c : Char) : Place :=
  if c = '\n' then ⟨place.line + 1, 0⟩ else ⟨place.line, place.column + 1⟩

def skip (place : Place) (s : List Char) : Place := s.foldl next place

/-- Behind a number of bytes, which may end within a character. -/
def skipBytes (place : Place) : Nat → List Char → Place
  | 0, _ => place
  | _, [] => place
  | bytes + 1, c :: rest =>
    if c.utf8Size ≤ bytes + 1 then (place.next c).skipBytes (bytes + 1 - c.utf8Size) rest
    else ⟨place.line, place.column + (bytes + 1)⟩
termination_by structural _ s => s

end Place

/-- A cause with the place that is told to the reader, if there is one. -/
structure Fault where
  cause : Cause
  place : Option Place

def Fault.message (fault : Fault) : String :=
  match fault.place with
  | some place => s!"{fault.cause.message} at line {place.line} column {place.column}"
  | none => fault.cause.message

end RenderLayout.Json
