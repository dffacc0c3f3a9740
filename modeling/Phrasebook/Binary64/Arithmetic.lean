import Phrasebook.Binary64

/-!
# Arithmetic and comparison of doubles

`Binary64.truncate` and `Binary64.remainder` compute exactly and round the outcome to a double.  Comparisons go by
what the doubles denote, so that both zeros are equal; an infinity is beyond all numbers, and what is not a number is
neither equal to anything nor less.
-/

namespace Phrasebook.Binary64

instance (n : Nat) : OfNat Binary64 n where
  ofNat := ofInt n

/-- The whole part of a double, which keeps its sign. -/
def truncate : Binary64 → Binary64
  | nan => nan
  | infinite negative => infinite negative
  | finite negative significand exponent => nearest negative (magnitude significand exponent).floor

/-- What is left of `x` when it is divided by `y` into a whole quotient.  It has the sign of `x`. -/
def remainder (x y : Binary64) : Binary64 :=
  match x, y with
  | finite negative significand exponent, finite _ significand' exponent' =>
    let size := magnitude significand exponent
    let divisor := magnitude significand' exponent'
    if divisor = 0 then nan else nearest negative (size - divisor * (size / divisor).floor)
  | finite _ _ _, infinite _ => x
  | _, _ => nan

/-- `x` with a sign. -/
def signed (negative : Bool) (x : Rat) : Rat :=
  if negative then -x else x

/-- How `x` compares to `y`, unless one of them is not a number. -/
def compare? (x y : Binary64) : Option Ordering :=
  match x, y with
  | nan, _ => none
  | _, nan => none
  | infinite negative, infinite other =>
    some (if negative = other then .eq else if negative then .lt else .gt)
  | infinite negative, finite _ _ _ => some (if negative then .lt else .gt)
  | finite _ _ _, infinite negative => some (if negative then .gt else .lt)
  | finite negative significand exponent, finite other significand' exponent' =>
    some (compareOfLessAndEq (signed negative (magnitude significand exponent))
      (signed other (magnitude significand' exponent')))

/-- Are the doubles equal? -/
def isEqual (x y : Binary64) : Bool :=
  x.compare? y = some .eq

/-- Is `x` less than `y`? -/
def isLess (x y : Binary64) : Bool :=
  x.compare? y = some .lt

/-- Is `x` less than `y` or equal to it? -/
def isAtMost (x y : Binary64) : Bool :=
  x.isLess y || x.isEqual y

/-- Is `x` between two doubles, or equal to one of them? -/
def isWithin (x low high : Binary64) : Bool :=
  low.isAtMost x && x.isAtMost high

end Phrasebook.Binary64
