/-!
# Rounding exact fractions

Two functions on which all digits of the library rest: `Rounding.halfEven`, the integer nearest to a fraction, and
`Rounding.leadingPlace`, the place of a fraction's first digit in a given base.
-/

namespace Phrasebook.Rounding

/-- The integer nearest to `x`; of two equally near ones the even one. -/
def halfEven (x : Rat) : Int :=
  let below := x.floor
  let rest := x - below
  if rest < 1 / 2 then below
  else if rest = 1 / 2 ∧ below % 2 = 0 then below
  else below + 1

/-- The largest `e` with `base ^ e ≤ x`, for a positive `x` and a base of at least two.  From one on, it is read off
the digits of the whole part; below one, off the digits of the largest integer less than `1 / x`. -/
def leadingPlace (base : Nat) (x : Rat) : Int :=
  if 1 ≤ x then
    ((Nat.toDigits base x.floor.toNat).length : Int) - 1
  else
    -((Nat.toDigits base ((1 / x).ceil.toNat - 1)).length : Int)

end Phrasebook.Rounding
