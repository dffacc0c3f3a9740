/-!
# Format specs

A format spec is text with conversions such as `%-8.2f` in it.  This module holds the parts a spec is read into and
what can be wrong with a spec or with the value it is applied to.
-/

namespace Phrasebook.Format

/-- The flags of a conversion. -/
structure Flags where
  /-- `-`: fill on the right. -/
  leftAlign : Bool := false
  /-- `+`: a sign before positive numbers. -/
  plusSign : Bool := false
  /-- A blank before positive numbers. -/
  spaceSign : Bool := false
  /-- `0`: fill with zeros. -/
  zeroPad : Bool := false
  /-- `,`: commas between groups of three digits. -/
  grouping : Bool := false
  /-- `#`: the alternate form. -/
  alternate : Bool := false
deriving DecidableEq, Repr

/-- What a conversion makes of a value. -/
inductive Kind where
  /-- An integer in base ten: `d`, `i`. -/
  | decimal
  /-- An integer in base sixteen: `x`, `X`. -/
  | hex (upper : Bool)
  /-- An integer in base eight: `o`. -/
  | octal
  /-- A number with a fixed count of decimals: `f`, `F`. -/
  | fixed
  /-- A number with an exponent: `e`, `E`. -/
  | exponential (upper : Bool)
  /-- A number with a count of significant digits: `g`, `G`. -/
  | general (upper : Bool)
  /-- A text: `s`. -/
  | text
  /-- A text in upper case: `S`. -/
  | upperText
  /-- One character: `c`. -/
  | char
deriving DecidableEq, Repr

/-- The letter that names a kind in an error, the same for the upper-case variants of a number. -/
def Kind.letter : Kind → Char
  | decimal => 'd'
  | hex _ => 'x'
  | octal => 'o'
  | fixed => 'f'
  | exponential _ => 'e'
  | general _ => 'g'
  | text => 's'
  | upperText => 'S'
  | char => 'c'

/-- A conversion: flags, least width, precision, kind. -/
structure Conversion where
  flags : Flags
  width : Option Nat
  precision : Option Nat
  kind : Kind
deriving DecidableEq, Repr

/-- A piece of a spec. -/
inductive Piece where
  /-- Text that stands for itself. -/
  | literal (text : String)
  /-- A conversion of the value. -/
  | conversion (conversion : Conversion)
deriving DecidableEq, Repr

/-- The conversion a piece is, if it is one. -/
def Piece.conversion? : Piece → Option Conversion
  | literal _ => none
  | conversion c => some c

/-- A spec with a percent sign at which no piece starts; `rest` begins with it. -/
structure SpecError where
  spec : String
  rest : String
deriving DecidableEq, Repr

/-- The place of the percent sign in bytes, counted from one. -/
def SpecError.column (error : SpecError) : Nat :=
  error.spec.utf8ByteSize - error.rest.utf8ByteSize + 1

/-- The wording of a spec error. -/
def SpecError.message (error : SpecError) : String :=
  "invalid format spec '" ++ error.spec ++ "' at column " ++ error.column.repr ++
    ": invalid conversion starting at '" ++ error.rest ++ "'"

/-- A number in a conversion that has an upper bound. -/
inductive Field where
  | width
  | precision
deriving DecidableEq, Repr

/-- The name of a field in an error. -/
def Field.name : Field → String
  | width => "width"
  | precision => "precision"

/-- The largest width and the largest precision. -/
def fieldLimit : Nat := 1024

/-- Why a value cannot be rendered with a spec. -/
inductive Error where
  /-- The spec cannot be read. -/
  | spec (error : SpecError)
  /-- The spec has more than one conversion. -/
  | multipleConversions (count : Nat)
  /-- The conversion does not suit the value, given by its type and its text. -/
  | incompatible (conversion : Char) (type value : String)
  /-- The conversion has a precision that it must not have. -/
  | precision (conversion : Char)
  /-- A width or precision is beyond the limit. -/
  | fieldTooLarge (field : Field) (value : Nat)
deriving DecidableEq, Repr

/-- The wording of an error. -/
def Error.message : Error → String
  | spec error => error.message
  | multipleConversions count => "spec contains " ++ count.repr ++ " conversions, expected at most one"
  | incompatible conversion type value =>
    "conversion '" ++ conversion.toString ++ "' cannot format " ++ type ++ " value '" ++ value ++ "'"
  | precision conversion => "precision is not allowed for conversion '" ++ conversion.toString ++ "'"
  | fieldTooLarge field value =>
    field.name ++ " " ++ value.repr ++ " exceeds the maximum of " ++ fieldLimit.repr

end Phrasebook.Format
