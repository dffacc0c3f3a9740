import Phrasebook.Decimal.Layout
import Phrasebook.Format.Spec
import Phrasebook.Text.Uppercase
import Phrasebook.Value

/-!
# Rendering values

`Format.render` writes a value as a spec says, or in its natural text.  A conversion works in two steps: `body` makes
the sign and digits, or the text, from the value; `pad` fills it up to the width.  Only the second step looks at the
width.
-/

namespace Phrasebook.Format

/-- The name of a value's type in an error. -/
def typeName : Value → String
  | .int _ => "int"
  | .long _ => "long"
  | .float _ => "float"
  | .text _ => "string"

/-- The error for a value that does not suit a conversion. -/
def unsuited (kind : Kind) (value : Value) : Error :=
  .incompatible kind.letter (typeName value) value.display

/-- What a conversion makes of a value, before it is filled up. -/
inductive Body where
  /-- A number: its sign, which may be empty, and its digits. -/
  | number (sign digits : List Char)
  /-- A text. -/
  | text (characters : List Char)
deriving DecidableEq, Repr

/-- The text of a body. -/
def Body.characters : Body → List Char
  | number sign digits => sign ++ digits
  | text characters => characters

/-- The sign that the flags ask for. -/
def sign (flags : Flags) (negative : Bool) : List Char :=
  if negative then ['-']
  else if flags.plusSign then ['+']
  else if flags.spaceSign then [' ']
  else []

/-- An integer's bits, in two's complement at the value's own width. -/
def bits? : Value → Option Nat
  | .int n => some n.toUInt32.toNat
  | .long n => some n.toUInt64.toNat
  | .float _ => none
  | .text _ => none

/-- A number as a double; a text is no number here. -/
def double? (value : Value) : Option Binary64 :=
  match value with
  | .text _ => none
  | _ => value.toBinary64?

/-- The character a value denotes: an integer is a code point, a text must have one character. -/
def character? : Value → Option Char
  | .int n => ofCodePoint? n.toInt
  | .long n => ofCodePoint? n.toInt
  | .float _ => none
  | .text s =>
    match s.toList with
    | [c] => some c
    | _ => none
where
  /-- The character with this code point. -/
  ofCodePoint? (n : Int) : Option Char :=
    if 0 ≤ n ∧ n.toNat.isValidChar then some (Char.ofNat n.toNat) else none

/-- The digits of a double without its sign: those that `layout` gives for a number, else a name. -/
def doubleDigits (layout : Rat → List Char) : Binary64 → List Char
  | .nan => ['N', 'a', 'N']
  | .infinite _ => ['I', 'n', 'f', 'i', 'n', 'i', 't', 'y']
  | .finite _ significand exponent => layout (Binary64.magnitude significand exponent)

/-- Commas between the groups of three digits before the point. -/
def groupWhole (digits : List Char) : List Char :=
  Decimal.groupThousands (digits.takeWhile (· != '.')) ++ digits.dropWhile (· != '.')

/-- The decimals of a conversion of a double that gives no precision. -/
def defaultPrecision : Nat := 6

/-- How a conversion of a double writes its digits. -/
def layout (conversion : Conversion) (x : Rat) : List Char :=
  let precision := conversion.precision.getD defaultPrecision
  match conversion.kind with
  | .exponential upper => Decimal.exponential x precision upper
  | .general upper => Decimal.general x precision upper conversion.flags.alternate
  | _ =>
    let digits := Decimal.fixed x precision
    if conversion.flags.grouping then groupWhole digits else digits

/-- What stands before the digits of an alternate hexadecimal number. -/
def hexMark (upper : Bool) : List Char :=
  ['0', if upper then 'X' else 'x']

/-- The digits of an integer, without its sign. -/
def integerDigits (conversion : Conversion) (n : Nat) : List Char :=
  let flags := conversion.flags
  match conversion.kind with
  | .hex upper =>
    let digits := Nat.toDigits 16 n
    (if flags.alternate then hexMark upper else []) ++ (if upper then digits.map Char.toUpper else digits)
  | .octal => (if flags.alternate then ['0'] else []) ++ Nat.toDigits 8 n
  | _ => if flags.grouping then Decimal.groupThousands (Nat.toDigits 10 n) else Nat.toDigits 10 n

/-- Refuses a precision. -/
def rejectPrecision (conversion : Conversion) : Except Error Unit :=
  if conversion.precision.isSome then .error (.precision conversion.kind.letter) else .ok ()

/-- What a conversion makes of a value, before it is filled up. -/
def body (conversion : Conversion) (value : Value) : Except Error Body := do
  let flags := conversion.flags
  match conversion.kind with
  | .decimal =>
    rejectPrecision conversion
    match value.toInt? with
    | some n => return .number (sign flags (n < 0)) (integerDigits conversion n.natAbs)
    | none => throw (unsuited conversion.kind value)
  | .hex _ | .octal =>
    rejectPrecision conversion
    match bits? value with
    | some n => return .number (sign flags false) (integerDigits conversion n)
    | none => throw (unsuited conversion.kind value)
  | .fixed | .exponential _ | .general _ =>
    match double? value with
    | some x => return .number (sign flags x.isNegative) (doubleDigits (layout conversion) x)
    | none => throw (unsuited conversion.kind value)
  | .text | .upperText =>
    let text := value.display.toList
    let text := match conversion.precision with
      | some count => text.take count
      | none => text
    return .text (if conversion.kind = .upperText then Text.upper text else text)
  | .char =>
    rejectPrecision conversion
    match character? value with
    | some c => return .text [c]
    | none => throw (unsuited conversion.kind value)

/-- Puts zeros between the sign, with the hexadecimal mark after it, and the other digits. -/
def zeroFill (sign digits : List Char) (count : Nat) : List Char :=
  let zeros := List.replicate count '0'
  match digits with
  | '0' :: 'x' :: rest => sign ++ '0' :: 'x' :: (zeros ++ rest)
  | '0' :: 'X' :: rest => sign ++ '0' :: 'X' :: (zeros ++ rest)
  | _ => sign ++ zeros ++ digits

/-- Does a text start with a decimal digit? -/
def startsWithDigit : List Char → Bool
  | [] => false
  | c :: _ => c.isDigit

/-- Fills a body up to a width: on the right with blanks if the flags say so; a number that starts with a decimal digit
with zeros if they say so; else on the left with blanks. -/
def pad (flags : Flags) (width : Nat) (body : Body) : List Char :=
  let count := width - body.characters.length
  if flags.leftAlign then
    body.characters ++ List.replicate count ' '
  else
    match body with
    | .number sign digits =>
      if flags.zeroPad && startsWithDigit digits then zeroFill sign digits count
      else List.replicate count ' ' ++ body.characters
    | .text _ => List.replicate count ' ' ++ body.characters

/-- What a conversion makes of a value. -/
def convert (conversion : Conversion) (value : Value) : Except Error (List Char) :=
  (body conversion value).map (pad conversion.flags (conversion.width.getD 0))

/-- The text of the pieces of a spec for a value. -/
def renderPieces (value : Value) : List Piece → Except Error (List Char)
  | [] => .ok []
  | .literal text :: rest => (renderPieces value rest).map (text.toList ++ ·)
  | .conversion conversion :: rest => do
    let converted ← convert conversion value
    let more ← renderPieces value rest
    return converted ++ more

/-- Writes a value as a spec says. -/
def renderWith (spec : String) (value : Value) : Except Error String := do
  let pieces ← validate spec
  return String.ofList (← renderPieces value pieces)

/-- Writes a value as a spec says, or in its natural text if there is none. -/
def render (value : Value) (spec : Option String) : Except Error String :=
  match spec with
  | none => .ok value.display
  | some spec => renderWith spec value

end Phrasebook.Format
