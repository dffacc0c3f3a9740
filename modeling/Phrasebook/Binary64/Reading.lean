import Phrasebook.Binary64
import Phrasebook.Decimal

/-!
# Reading doubles

`Binary64.ofDecimal` is the double nearest to a decimal number; `Binary64.read?` reads a text: a sign, then digits with
an optional point and exponent, or a name of an infinity or of the number that is not one.
-/

namespace Phrasebook

namespace Binary64

/-- The double nearest to `± digits * 10 ^ exponent`.  A number of at least 310 places before the point is beyond the
largest double, one that starts after 400 zeros behind the point is below half the smallest; deciding these by their
length keeps the powers of ten small. -/
def ofDecimal (negative : Bool) (d : Decimal) : Binary64 :=
  let places := (Nat.toDigits 10 d.digits).length + d.exponent
  if d.digits = 0 ∨ places < -400 then finite negative 0 minExponent
  else if 310 < places then infinite negative
  else nearest negative d.toRat

end Binary64

namespace Decimal

/-- The value of digit characters, most significant first. -/
def ofDigits (digits : List Char) : Nat :=
  Nat.ofDigitChars 10 digits 0

/-- An integer: an optional sign and at least one digit, nothing else. -/
def readInt? (text : List Char) : Option Int :=
  let (negative, digits) :=
    match text with
    | '-' :: rest => (true, rest)
    | '+' :: rest => (false, rest)
    | _ => (false, text)
  if digits = [] ∨ digits.any (! ·.isDigit) then none
  else if negative then some (-(ofDigits digits : Int))
  else some (ofDigits digits)

/-- A decimal without a sign: digits, of which there is at least one, an optional point before, among or after them,
and an optional exponent marked by `e` or `E`. -/
def read? (text : List Char) : Option Decimal :=
  let whole := text.takeWhile Char.isDigit
  let (fraction, rest) :=
    match text.dropWhile Char.isDigit with
    | '.' :: rest => (rest.takeWhile Char.isDigit, rest.dropWhile Char.isDigit)
    | rest => ([], rest)
  let digits := whole ++ fraction
  if digits = [] then
    none
  else
    let scaled := fun exponent : Int => some (⟨ofDigits digits, exponent - fraction.length⟩ : Decimal)
    match rest with
    | [] => scaled 0
    | c :: exponent =>
      if c = 'e' ∨ c = 'E' then (readInt? exponent).bind scaled else none

end Decimal

namespace Binary64

/-- The double a text denotes, if it denotes one.  The names `inf`, `infinity` and `nan` may be in any case. -/
def read? (text : List Char) : Option Binary64 :=
  let (negative, size) :=
    match text with
    | '-' :: rest => (true, rest)
    | '+' :: rest => (false, rest)
    | _ => (false, text)
  let name := String.ofList (size.map Char.toLower)
  if name = "inf" ∨ name = "infinity" then some (infinite negative)
  else if name = "nan" then some nan
  else (Decimal.read? size).map (ofDecimal negative)

end Binary64

end Phrasebook
