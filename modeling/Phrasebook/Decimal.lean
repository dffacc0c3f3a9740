/-!
# Decimal numbers and their digits

A `Decimal` is `digits * 10 ^ exponent`.  `Decimal.positional` writes one without an exponent, `dropTrailingZeros` and
`groupThousands` edit written digits.
-/

namespace Phrasebook

/-- The number `digits * 10 ^ exponent`. -/
structure Decimal where
  digits : Nat
  exponent : Int
deriving DecidableEq, Repr

namespace Decimal

/-- The number denoted. -/
def toRat (d : Decimal) : Rat :=
  d.digits * (10 : Rat) ^ d.exponent

/-- The digits without an exponent: zeros follow the digits of a whole number; otherwise a point stands before the last
`-exponent` digits, with at least one digit in front of it. -/
def positional (d : Decimal) : List Char :=
  let digits := Nat.toDigits 10 d.digits
  if 0 ≤ d.exponent then
    digits ++ List.replicate d.exponent.toNat '0'
  else
    let places := (-d.exponent).toNat
    let padded := List.replicate (places + 1 - digits.length) '0' ++ digits
    padded.take (padded.length - places) ++ '.' :: padded.drop (padded.length - places)

/-- Removes the zeros that end a fraction, and its point if nothing follows it.  A number without a point is kept. -/
def dropTrailingZeros (number : List Char) : List Char :=
  if number.contains '.' then
    ((number.reverse.dropWhile (· == '0')).dropWhile (· == '.')).reverse
  else
    number

/-- Puts a comma before every group of three digits counted from the right, never in front. -/
def groupThousands : List Char → List Char
  | [] => []
  | c :: rest =>
    if rest ≠ [] ∧ rest.length % 3 = 0 then c :: ',' :: groupThousands rest else c :: groupThousands rest

end Decimal

end Phrasebook
