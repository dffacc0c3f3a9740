import Phrasebook.Binary64.Reading
import Phrasebook.Json
import Phrasebook.Json.Fault

/-!
# Reading JSON

`Json.read` reads a text with a builder, `Json.parse` into a `Json`.  Each reading step takes the characters that are
left and returns what it made together with the characters after it, or the fault it met.  Values nest at most as deep
as the caller allows: nesting is the recursion of `readValue`, and the items of one array or object are counted down
from the length of the text, as each takes a character at least.
-/

namespace Phrasebook.Json

/-- A step of reading: what was made and the characters left, or a fault. -/
abbrev Step (α : Type) := Except Fault (α × List Char)

/-- Is this space between tokens? -/
def isSpace (c : Char) : Bool :=
  c == ' ' || c == '\n' || c == '\t' || c == '\r'

/-- The text after its leading space. -/
def skipSpace (text : List Char) : List Char :=
  text.dropWhile isSpace

/-- Takes a word whose first letter has been taken already. -/
def readWord {α : Type} (value : α) : List Char → List Char → Step α
  | [], rest => .ok (value, rest)
  | _ :: _, [] => .error (.upon .endInValue [])
  | expected :: word, c :: rest =>
    if c = expected then readWord value word rest else .error (.upon .expectedWord (c :: rest))

/-! ### Numbers -/

/-- The digits after a decimal point. -/
def readFraction (text : List Char) : Step (List Char) :=
  match text with
  | [] => .error (.upon .endInValue [])
  | c :: _ =>
    if c.isDigit then .ok (text.takeWhile Char.isDigit, text.dropWhile Char.isDigit)
    else .error (.upon .invalidNumber text)

/-- The characters after the shortest beginning of a run of digits whose value is beyond `limit`, if there is one. -/
def afterOverflow? (limit : Nat) (value : Nat) : List Char → Option (List Char)
  | [] => none
  | c :: rest =>
    if c.isDigit then
      let value := 10 * value + (c.toNat - '0'.toNat)
      if limit < value then some rest else afterOverflow? limit value rest
    else none

/-- The exponent after its mark, for a number that is zero or not.  A positive exponent beyond 32 bits is a fault
right after the digit that makes it so, unless the number is zero. -/
def readExponent (isZero : Bool) (text : List Char) : Step Int :=
  let (negative, digits) :=
    match text with
    | '-' :: rest => (true, rest)
    | '+' :: rest => (false, rest)
    | _ => (false, text)
  match digits with
  | [] => .error (.upon .endInValue [])
  | c :: _ =>
    if c.isDigit then
      let value : Int := Decimal.ofDigits (digits.takeWhile Char.isDigit)
      match afterOverflow? 2147483647 0 digits with
      | some rest =>
        if isZero || negative then .ok (if negative then -value else value, digits.dropWhile Char.isDigit)
        else .error (.before .numberOutOfRange rest)
      | none => .ok (if negative then -value else value, digits.dropWhile Char.isDigit)
    else .error (.upon .invalidNumber digits)

/-- The integer `± n` if it fits 64 bits, signed or not; else, and for a negative zero, the nearest double. -/
def Number.ofInteger (negative : Bool) (n : Nat) : Number :=
  if negative then
    if n = 0 ∨ 1 <<< 63 < n then .float (.ofDecimal true ⟨n, 0⟩) else .integer (-n)
  else if n < 1 <<< 64 then .integer n
  else .float (.ofDecimal false ⟨n, 0⟩)

/-- The double nearest to `± d`, read before `rest`; an infinity is a fault. -/
def finishFloat (negative : Bool) (d : Decimal) (rest : List Char) : Step Number :=
  match Binary64.ofDecimal negative d with
  | .infinite _ => .error (.before .numberOutOfRange rest)
  | x => .ok (.float x, rest)

/-- What follows the whole digits of a number: nothing, a fraction, an exponent, or both. -/
def readNumberEnd (negative : Bool) (whole : List Char) (text : List Char) : Step Number :=
  let exponentOf := fun (fraction rest : List Char) =>
    let digits := Decimal.ofDigits (whole ++ fraction)
    (readExponent (digits == 0) rest).bind fun (exponent, rest) =>
      finishFloat negative ⟨digits, exponent - fraction.length⟩ rest
  match text with
  | [] => finishInteger
  | c :: rest =>
    if c = '.' then
      (readFraction rest).bind fun (fraction, rest) =>
        match rest with
        | e :: afterMark =>
          if e = 'e' ∨ e = 'E' then exponentOf fraction afterMark
          else finishFloat negative ⟨Decimal.ofDigits (whole ++ fraction), -fraction.length⟩ rest
        | [] => finishFloat negative ⟨Decimal.ofDigits (whole ++ fraction), -fraction.length⟩ rest
    else if c = 'e' ∨ c = 'E' then exponentOf [] rest
    else finishInteger
where
  /-- The number has neither fraction nor exponent; only its size can be a fault. -/
  finishInteger : Step Number :=
    match Number.ofInteger negative (Decimal.ofDigits whole) with
    | .float (.infinite _) => .error (.before .numberOutOfRange text)
    | n => .ok (n, text)

/-- A number after its sign.  A zero is not followed by another digit. -/
def readNumber (negative : Bool) (text : List Char) : Step Number :=
  match text with
  | [] => .error (.upon .endInValue [])
  | '0' :: rest =>
    match rest with
    | [] => readNumberEnd negative ['0'] rest
    | c :: _ => if c.isDigit then .error (.upon .invalidNumber rest) else readNumberEnd negative ['0'] rest
  | c :: _ =>
    if c.isDigit then readNumberEnd negative (text.takeWhile Char.isDigit) (text.dropWhile Char.isDigit)
    else .error (.upon .invalidNumber text)

/-! ### Strings -/

/-- The value of a hexadecimal digit. -/
def hexDigit? (c : Char) : Option Nat :=
  if '0' ≤ c ∧ c ≤ '9' then some (c.toNat - '0'.toNat)
  else if 'a' ≤ c ∧ c ≤ 'f' then some (c.toNat - 'a'.toNat + 10)
  else if 'A' ≤ c ∧ c ≤ 'F' then some (c.toNat - 'A'.toNat + 10)
  else none

/-- The value of four hexadecimal digits. -/
def hexUnit? (a b c d : Char) : Option Nat :=
  match hexDigit? a, hexDigit? b, hexDigit? c, hexDigit? d with
  | some a, some b, some c, some d => some (((a * 16 + b) * 16 + c) * 16 + d)
  | _, _, _, _ => none

/-- What is wrong where four hexadecimal digits should stand: they are taken as four bytes together. -/
def hexFault (text : List Char) : Fault :=
  if byteLength text < 4 then .before .endInString [] else ⟨.invalidEscape, byteLength text - 4⟩

/-- What is wrong where the second half of a surrogate pair should stand: no backslash, no `u`, or no digits. -/
def pairFault (text : List Char) : Fault :=
  match text with
  | [] => .upon .endInString []
  | '\\' :: 'u' :: rest => hexFault rest
  | ['\\'] => .upon .endInString []
  | '\\' :: rest => .upon .unfinishedPair rest
  | _ => .upon .unfinishedPair text

/-- The character that a backslash and this letter stand for. -/
def unescape? (c : Char) : Option Char :=
  if c = '"' ∨ c = '\\' ∨ c = '/' then some c
  else if c = 'b' then some '\x08'
  else if c = 'f' then some '\x0c'
  else if c = 'n' then some '\n'
  else if c = 'r' then some '\r'
  else if c = 't' then some '\t'
  else none

/-- Is this the first half of a surrogate pair? -/
def isHighSurrogate (unit : Nat) : Bool :=
  0xD800 ≤ unit && unit ≤ 0xDBFF

/-- Is this the second half of a surrogate pair? -/
def isLowSurrogate (unit : Nat) : Bool :=
  0xDC00 ≤ unit && unit ≤ 0xDFFF

/-- The character of a surrogate pair. -/
def ofSurrogates (high low : Nat) : Char :=
  Char.ofNat (0x10000 + (high - 0xD800) * 0x400 + (low - 0xDC00))

/-- A string after its opening quote; `done` holds the characters read so far, the last one first. -/
def readString (done : List Char) : List Char → Step String
  | [] => .error (.upon .endInString [])
  | '"' :: rest => .ok (String.ofList done.reverse, rest)
  | '\\' :: 'u' :: a :: b :: c :: d :: rest =>
    match hexUnit? a b c d with
    | none => .error (hexFault (a :: b :: c :: d :: rest))
    | some unit =>
      if isLowSurrogate unit then .error (.before .loneSurrogate rest)
      else if isHighSurrogate unit then
        match rest with
        | '\\' :: 'u' :: e :: f :: g :: h :: rest =>
          match hexUnit? e f g h with
          | none => .error (hexFault (e :: f :: g :: h :: rest))
          | some low =>
            if isLowSurrogate low then readString (ofSurrogates unit low :: done) rest
            else .error (.before .loneSurrogate rest)
        | rest => .error (pairFault rest)
      else readString (Char.ofNat unit :: done) rest
  | ['\\'] => .error (.upon .endInString [])
  | '\\' :: c :: rest =>
    if c = 'u' then .error (hexFault rest)
    else
      match unescape? c with
      | some x => readString (x :: done) rest
      | none => .error (.upon .invalidEscape (c :: rest))
  | c :: rest =>
    if c.toNat < 0x20 then .error (.before .controlCharacter rest) else readString (c :: done) rest

/-! ### Arrays, objects and values -/

section
variable {α : Type}

/-- A pair of brackets around parts that commas separate. -/
structure Enclosure where
  closing : Char
  /-- What is wrong if the text ends before the closing bracket. -/
  atEnd : Cause
  /-- What is wrong if neither a comma nor the closing bracket follows a part. -/
  unseparated : Cause
  isSpace_closing : isSpace closing = false
  closing_ne_comma : closing ≠ ','

/-- The brackets of an array. -/
def Enclosure.array : Enclosure :=
  ⟨']', .endInArray, .expectedCommaOrBracket, by decide, by decide⟩

/-- The braces of an object. -/
def Enclosure.object : Enclosure :=
  ⟨'}', .endInObject, .expectedCommaOrBrace, by decide, by decide⟩

/-- The parts from the first one on, up to the closing bracket.  `room` bounds their number. -/
def readParts (e : Enclosure) (readPart : List Char → Step α) : Nat → List Char → Step (List α)
  | 0, text => .error (.upon e.atEnd text)
  | room + 1, text =>
    (readPart text).bind fun (part, rest) =>
      match skipSpace rest with
      | [] => .error (.upon e.atEnd [])
      | c :: rest =>
        if c = e.closing then .ok ([part], rest)
        else if c = ',' then
          match skipSpace rest with
          | [] => .error (.upon .endInValue [])
          | c :: rest =>
            if c = e.closing then .error (.upon .trailingComma (c :: rest))
            else (readParts e readPart room (c :: rest)).map fun (parts, rest) => (part :: parts, rest)
        else .error (.upon e.unseparated (c :: rest))

/-- The parts after an opening bracket. -/
def readEnclosed (e : Enclosure) (readPart : List Char → Step α) (text : List Char) : Step (List α) :=
  match skipSpace text with
  | [] => .error (.upon e.atEnd [])
  | c :: rest => if c = e.closing then .ok ([], rest) else readParts e readPart (c :: rest).length (c :: rest)

/-- A member of an object: a name in quotes, a colon, a value. -/
def readMember (readItem : List Char → Step α) (text : List Char) : Step (String × α) :=
  match text with
  | '"' :: rest =>
    (readString [] rest).bind fun (name, rest) =>
      match skipSpace rest with
      | [] => .error (.upon .endInObject [])
      | ':' :: rest => (readItem rest).map fun (value, rest) => ((name, value), rest)
      | rest => .error (.upon .expectedColon rest)
  | _ => .error (.upon .keyNotString text)

/-- A value that is neither array nor object. -/
def readScalar (b : Builder α) (text : List Char) : Step α :=
  match text with
  | [] => .error (.upon .endInValue [])
  | 'n' :: rest => readWord b.null ['u', 'l', 'l'] rest
  | 't' :: rest => readWord (b.bool true) ['r', 'u', 'e'] rest
  | 'f' :: rest => readWord (b.bool false) ['a', 'l', 's', 'e'] rest
  | '"' :: rest => (readString [] rest).map fun (value, rest) => (b.string value, rest)
  | '-' :: rest => (readNumber true rest).map fun (value, rest) => (b.number value, rest)
  | c :: _ =>
    if c.isDigit then (readNumber false text).map fun (value, rest) => (b.number value, rest)
    else .error (.upon .expectedValue text)

/-- A value in which arrays and objects nest at most `depth` deep. -/
def readValue (b : Builder α) : Nat → List Char → Step α
  | 0, text =>
    match skipSpace text with
    | '[' :: rest => .error (.upon .tooDeep ('[' :: rest))
    | '{' :: rest => .error (.upon .tooDeep ('{' :: rest))
    | rest => readScalar b rest
  | depth + 1, text =>
    match skipSpace text with
    | '[' :: rest => (readEnclosed .array (readValue b depth) rest).map fun (items, rest) => (b.array items, rest)
    | '{' :: rest =>
      (readEnclosed .object (readMember (readValue b depth)) rest).map fun (members, rest) => (b.object members, rest)
    | rest => readScalar b rest

/-- A text that is one value and space around it. -/
def readText (b : Builder α) (depth : Nat) (text : List Char) : Except Fault α :=
  (readValue b depth text).bind fun (value, rest) =>
    match skipSpace rest with
    | [] => .ok value
    | rest => .error (.upon .trailingCharacters rest)

end

/-- How deep arrays and objects may nest. -/
def depthLimit : Nat := 127

/-- Reads a text with a builder. -/
def read {α : Type} (b : Builder α) (depth : Nat) (text : String) : Except Error α :=
  (readText b depth text.toList).mapError (·.locate text.toList)

/-- Reads a text into a value. -/
def parse (text : String) : Except Error Json :=
  read builder depthLimit text

end Phrasebook.Json
