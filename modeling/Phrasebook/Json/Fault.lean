/-!
# Faults in JSON text

What can be wrong with a JSON text, and where.  A `Json.Fault` counts the bytes that were still unread when the fault
was found, so that reading needs no counter; `Json.Fault.locate` turns that count into a line and a column.
-/

namespace Phrasebook.Json

/-- What is wrong with a JSON text. -/
inductive Cause where
  | endInValue
  | endInString
  | endInArray
  | endInObject
  | expectedValue
  | expectedWord
  | expectedColon
  | expectedCommaOrBrace
  | expectedCommaOrBracket
  | keyNotString
  | trailingComma
  | trailingCharacters
  | invalidNumber
  | numberOutOfRange
  | invalidEscape
  | controlCharacter
  | loneSurrogate
  | unfinishedPair
  | tooDeep
deriving DecidableEq, Repr

namespace Cause

/-- Does the text end too early? -/
def isEnd : Cause → Bool
  | endInValue | endInString | endInArray | endInObject => true
  | _ => false

/-- The wording of a cause. -/
def message : Cause → String
  | endInValue => "EOF while parsing a value"
  | endInString => "EOF while parsing a string"
  | endInArray => "EOF while parsing a list"
  | endInObject => "EOF while parsing an object"
  | expectedValue => "expected value"
  | expectedWord => "expected ident"
  | expectedColon => "expected `:`"
  | expectedCommaOrBrace => "expected `,` or `\x7d`"
  | expectedCommaOrBracket => "expected `,` or `]`"
  | keyNotString => "key must be a string"
  | trailingComma => "trailing comma"
  | trailingCharacters => "trailing characters"
  | invalidNumber => "invalid number"
  | numberOutOfRange => "number out of range"
  | invalidEscape => "invalid escape"
  | controlCharacter => "control character (\\u0000-\\u001F) found while parsing a string"
  | loneSurrogate => "lone leading surrogate in hex escape"
  | unfinishedPair => "unexpected end of hex escape"
  | tooDeep => "recursion limit exceeded"

end Cause

/-- The length of a text in bytes. -/
def byteLength (text : List Char) : Nat :=
  text.foldl (fun length c => length + c.utf8Size) 0

/-- A cause, and the number of bytes that were unread when it was found. -/
structure Fault where
  cause : Cause
  unread : Nat
deriving DecidableEq, Repr

namespace Fault

/-- A fault found when everything before `rest` had been taken. -/
def before (cause : Cause) (rest : List Char) : Fault :=
  ⟨cause, byteLength rest⟩

/-- A fault found at the first byte of `rest`, which counts as read; at the end of the text there is none to count. -/
def upon (cause : Cause) (rest : List Char) : Fault :=
  ⟨cause, byteLength rest - 1⟩

end Fault

/-- A place in a text: its line, from one on, and the number of bytes before it on that line. -/
structure Position where
  line : Nat
  column : Nat
deriving DecidableEq, Repr

/-- The place reached from `place` after `count` more bytes of a text. -/
def Position.advance (place : Position) (count : Nat) : List Char → Position
  | [] => place
  | c :: rest =>
    if count = 0 then place
    else if c = '\n' then advance ⟨place.line + 1, 0⟩ (count - 1) rest
    else if count < c.utf8Size then ⟨place.line, place.column + count⟩
    else advance ⟨place.line, place.column + c.utf8Size⟩ (count - c.utf8Size) rest

/-- A fault with its place. -/
structure Error where
  cause : Cause
  place : Position
deriving DecidableEq, Repr

/-- The place of a fault in the text it was found in. -/
def Fault.locate (fault : Fault) (text : List Char) : Error :=
  ⟨fault.cause, Position.advance ⟨1, 0⟩ (byteLength text - fault.unread) text⟩

/-- The wording of an error. -/
def Error.message (error : Error) : String :=
  error.cause.message ++ " at line " ++ error.place.line.repr ++ " column " ++ error.place.column.repr

end Phrasebook.Json
