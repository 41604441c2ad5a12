import Phrasebook.Number.Basic
import Phrasebook.Text.Visible

/-!
# Faults in JSON texts

A text that is no JSON, or whose JSON is not of the shape that is asked for, has a fault at some
byte offset. Its message gives the cause, and the line and the column that the offset falls on.
-/

namespace Phrasebook.Json

/-- What stands where something else was asked for. -/
inductive Found where
  | null
  | boolean (value : Bool)
  | number (value : Number)
  | string (value : Text)
  | array
  | object
  deriving DecidableEq, Repr

/-- The words for what was found. -/
def Found.message : Found → Text
  | null => "null"
  | boolean true => "boolean `true`"
  | boolean false => "boolean `false`"
  | number (.integer value) => "integer " ++ Text.ticked (Text.signedDecimal value)
  | number (.double value) => "floating point " ++ Text.ticked value.describe
  | string value => "string " ++ Text.visible value
  | array => "sequence"
  | object => "map"

/-- Why a text is not JSON, or not of the shape that is asked for. -/
inductive Fault where
  /-- The text ends where a value is due. -/
  | endInValue
  /-- The text ends inside a string. -/
  | endInString
  /-- The text ends inside an array. -/
  | endInArray
  /-- The text ends inside an object. -/
  | endInObject
  /-- No value starts like this. -/
  | expectedValue
  /-- A word that starts like `null`, `true` or `false` goes on differently. -/
  | expectedIdent
  /-- A number is not well formed. -/
  | invalidNumber
  /-- A number is too large for a double. -/
  | numberOutOfRange
  /-- A string holds a character below the space. -/
  | controlCharacter
  /-- A backslash is followed by something that is no escape. -/
  | invalidEscape
  /-- Half of a surrogate pair stands alone. -/
  | loneSurrogate
  /-- The first half of a surrogate pair is not followed by an escape. -/
  | endOfHexEscape
  /-- A closing bracket follows a comma. -/
  | trailingComma
  /-- The key of a member is not a string. -/
  | keyNotString
  /-- The items of an array are not separated by commas. -/
  | expectedArrayEnd
  /-- The members of an object are not separated by commas. -/
  | expectedObjectEnd
  /-- A key is not followed by a colon. -/
  | expectedColon
  /-- Arrays and objects are nested too deeply. -/
  | tooDeep
  /-- Something follows the value. -/
  | trailingCharacters
  /-- An object has a key that is not known. -/
  | unknownField (name : Text) (known : List Text)
  /-- An object has a key twice. -/
  | duplicateField (name : Text)
  /-- A value is of another kind than the one asked for. -/
  | wrongKind (found : Found) (expected : Text)
  /-- An array has too few items. -/
  | tooShort (items : Nat) (expected : Text)
  deriving DecidableEq, Repr

/-- The words for a fault. -/
def Fault.message : Fault → Text
  | endInValue => "EOF while parsing a value"
  | endInString => "EOF while parsing a string"
  | endInArray => "EOF while parsing a list"
  | endInObject => "EOF while parsing an object"
  | expectedValue => "expected value"
  | expectedIdent => "expected ident"
  | invalidNumber => "invalid number"
  | numberOutOfRange => "number out of range"
  | controlCharacter => "control character (\\u0000-\\u001F) found while parsing a string"
  | invalidEscape => "invalid escape"
  | loneSurrogate => "lone leading surrogate in hex escape"
  | endOfHexEscape => "unexpected end of hex escape"
  | trailingComma => "trailing comma"
  | keyNotString => "key must be a string"
  | expectedArrayEnd => "expected `,` or `]`"
  | expectedObjectEnd => "expected `,` or `\x7d`"
  | expectedColon => "expected `:`"
  | tooDeep => "recursion limit exceeded"
  | trailingCharacters => "trailing characters"
  | unknownField name known =>
    "unknown field " ++ Text.ticked name ++ ", expected one of " ++
      Text.joinWith ", " (known.map Text.ticked)
  | duplicateField name => "duplicate field " ++ Text.ticked name
  | wrongKind found expected => "invalid type: " ++ found.message ++ ", expected " ++ expected
  | tooShort items expected =>
    "invalid length " ++ Text.decimal items ++ ", expected " ++ expected

/-- A fault and the number of bytes in front of the place where it shows. -/
structure Located where
  cause : Fault
  offset : Nat
  deriving DecidableEq, Repr

/-- The line of the byte after the first `offset` bytes of a text, counted from one, and the
number of bytes between the start of that line and it. -/
def lineColumn (offset : Nat) (text : Text) : Nat × Nat :=
  go 0 1 0 text
where
  /-- The line and its start so far, and where the next character stands. -/
  go (here line start : Nat) : Text → Nat × Nat
    | [] => (line, offset - start)
    | c :: rest =>
      if offset ≤ here then (line, offset - start)
      else
        let next := here + c.utf8Size
        if c = '\n' then go next (line + 1) next rest else go next line start rest

/-- A message with the line and the column that an offset falls on. -/
def locate (text : Text) (offset : Nat) (message : Text) : Text :=
  let (line, column) := lineColumn offset text
  message ++ " at line " ++ Text.decimal line ++ " column " ++ Text.decimal column

end Phrasebook.Json
