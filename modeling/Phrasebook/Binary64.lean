import Phrasebook.Rounding

/-!
# Double-precision numbers

A `Binary64` is a double by what it denotes: nothing, an infinity, or `± significand * 2 ^ exponent`.  All arithmetic
on doubles in this library is that of the exact fractions `Binary64.toRat?`, and rounding happens in one place,
`Binary64.nearest`.

`ofBits` and `nearest` give each number the representation with the smallest exponent that a double allows.
-/

namespace Phrasebook

/-- A double by what it denotes. -/
inductive Binary64 where
  /-- Not a number. -/
  | nan
  /-- An infinity. -/
  | infinite (negative : Bool)
  /-- The number `± significand * 2 ^ exponent`; a zero has a sign too. -/
  | finite (negative : Bool) (significand : Nat) (exponent : Int)
deriving DecidableEq, Repr

namespace Binary64

/-- The smallest exponent of a double, that of the subnormal numbers. -/
def minExponent : Int := -1074

/-- The largest exponent of a double. -/
def maxExponent : Int := 971

/-- The least significand of a double that is not subnormal. -/
def leastNormal : Nat := 1 <<< 52

/-- The absolute value of a finite double, as an exact fraction. -/
def magnitude (significand : Nat) (exponent : Int) : Rat :=
  significand * (2 : Rat) ^ exponent

/-- The number denoted, if there is one. -/
def toRat? : Binary64 → Option Rat
  | nan => none
  | infinite _ => none
  | finite negative significand exponent =>
    let size := magnitude significand exponent
    some (if negative then -size else size)

/-- The sign; a number that is not one counts as positive. -/
def isNegative : Binary64 → Bool
  | nan => false
  | infinite negative => negative
  | finite negative _ _ => negative

/-- The double nearest to `± x`, a half going to the even significand, for `0 ≤ x`.  What rounds beyond the largest
double is an infinity. -/
def nearest (negative : Bool) (x : Rat) : Binary64 :=
  if x = 0 then
    finite negative 0 minExponent
  else
    let exponent := max (Rounding.leadingPlace 2 x - 52) minExponent
    let significand := (Rounding.halfEven (x / (2 : Rat) ^ exponent)).toNat
    let (significand, exponent) :=
      if significand = 1 <<< 53 then (leastNormal, exponent + 1) else (significand, exponent)
    if maxExponent < exponent then infinite negative else finite negative significand exponent

/-- The double nearest to an integer. -/
def ofInt (n : Int) : Binary64 :=
  nearest (decide (n < 0)) n.natAbs

/-- The double whose bits are given: a sign, eleven bits of exponent, fifty-two of significand. -/
def ofBits (bits : UInt64) : Binary64 :=
  let n := bits.toNat
  let negative := n >>> 63 = 1
  let exponent := (n >>> 52) % 2048
  let fraction := n % leastNormal
  if exponent = 2047 then
    if fraction = 0 then infinite negative else nan
  else if exponent = 0 then
    finite negative fraction minExponent
  else
    finite negative (leastNormal + fraction) ((exponent : Int) - 1075)

/-- The double equal to the single-precision number whose bits are given. -/
def ofSingleBits (bits : UInt32) : Binary64 :=
  let n := bits.toNat
  let negative := n >>> 31 = 1
  let exponent := (n >>> 23) % 256
  let fraction := n % (1 <<< 23)
  if exponent = 255 then
    if fraction = 0 then infinite negative else nan
  else if exponent = 0 then
    nearest negative (magnitude fraction (-149))
  else
    nearest negative (magnitude ((1 <<< 23) + fraction) ((exponent : Int) - 150))

/-- The bits of a double; every number that is not one has the same bits. -/
def toBits : Binary64 → UInt64
  | nan => 0x7ff8000000000000
  | infinite negative => UInt64.ofNat ((if negative then 1 <<< 63 else 0) + (2047 <<< 52))
  | finite negative significand exponent =>
    let sign := if negative then 1 <<< 63 else 0
    if significand < leastNormal then
      UInt64.ofNat (sign + significand)
    else
      UInt64.ofNat (sign + ((exponent + 1075).toNat <<< 52) + (significand - leastNormal))

end Binary64

end Phrasebook
