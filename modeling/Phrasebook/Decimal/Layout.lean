import Phrasebook.Decimal
import Phrasebook.Rounding

/-!
# Fixed, exponential and general layout

How an exact fraction that is not negative is written with a given number of digits.  Each layout rounds the fraction
itself, never an already rounded text, and a half goes to the even digit.
-/

namespace Phrasebook.Decimal

/-- Digits with exactly `places` of them after the point. -/
def fixed (x : Rat) (places : Nat) : List Char :=
  positional ⟨(Rounding.halfEven (x * (10 : Rat) ^ places)).toNat, -places⟩

/-- `x` rounded to `places + 1` significant digits: the digits, and the place of the first of them.  Zero has place
zero.  Rounding up may reach the next power of ten, which moves the place. -/
def significant (x : Rat) (places : Nat) : Nat × Int :=
  if x = 0 then
    (0, 0)
  else
    let place := Rounding.leadingPlace 10 x
    let digits := (Rounding.halfEven (x / (10 : Rat) ^ (place - places))).toNat
    if (Nat.toDigits 10 digits).length = places + 2 then (digits / 10, place + 1) else (digits, place)

/-- One digit, `places` more after the point, and the exponent with its sign and at least two digits. -/
def exponential (x : Rat) (places : Nat) (upper : Bool) : List Char :=
  let (digits, place) := significant x places
  let exponent := Nat.toDigits 10 place.natAbs
  positional ⟨digits, -places⟩ ++ (if upper then 'E' else 'e') :: (if place < 0 then '-' else '+') ::
    (List.replicate (2 - exponent.length) '0' ++ exponent)

/-- `precision` significant digits (at least one): exponential below `10 ^ -4` and from `10 ^ precision` on, fixed in
between, as the rounded number decides.  Zeros that end the fraction are dropped unless `keepZeros`. -/
def general (x : Rat) (precision : Nat) (upper keepZeros : Bool) : List Char :=
  let precision := max precision 1
  let place := (significant x (precision - 1)).2
  let text :=
    if place < -4 ∨ (precision : Int) ≤ place then exponential x (precision - 1) upper
    else fixed x (precision - 1 - place).toNat
  if keepZeros then
    text
  else
    let isMark := fun c => c == 'e' || c == 'E'
    dropTrailingZeros (text.takeWhile (! isMark ·)) ++ text.dropWhile (! isMark ·)

end Phrasebook.Decimal
