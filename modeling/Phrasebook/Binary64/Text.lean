import Phrasebook.Binary64
import Phrasebook.Decimal

/-!
# The text of a double

`Binary64.text` writes a double with the fewest digits that read back as the same double, without an exponent.  The
search tries 1, 2, … 17 digits; on each grid only the two decimals next to the number can be nearest to it.
-/

namespace Phrasebook.Binary64

/-- Does this decimal, without a sign, round to the finite double `significand * 2 ^ exponent`? -/
def readsBack (significand : Nat) (exponent : Int) (d : Decimal) : Bool :=
  nearest false d.toRat = finite false significand exponent

/-- Of the two decimals with `count` digits next to the number the one that reads back; if both do, the nearer one, and
of two equally near ones the upper one. -/
def shortestAt? (significand : Nat) (exponent : Int) (count : Nat) : Option Decimal :=
  let x := magnitude significand exponent
  let unit := Rounding.leadingPlace 10 x - (count - 1 : Nat)
  let digits := (x / (10 : Rat) ^ unit).floor.toNat
  let below : Decimal := ⟨digits, unit⟩
  let above : Decimal := ⟨digits + 1, unit⟩
  let upperIsNearer := above.toRat - x ≤ x - below.toRat
  if readsBack significand exponent above && (upperIsNearer || !readsBack significand exponent below) then some above
  else if readsBack significand exponent below then some below
  else none

/-- The decimal with the fewest digits that reads back.  Seventeen digits are enough for every double. -/
def shortest (significand : Nat) (exponent : Int) : Decimal :=
  ((List.range' 1 17).findSome? (shortestAt? significand exponent)).getD
    ⟨(magnitude significand exponent).floor.toNat, 0⟩

/-- The text of a double: digits without an exponent, a minus sign also before a zero, no point in a whole number. -/
def text (x : Binary64) : List Char :=
  match x with
  | nan => ['N', 'a', 'N']
  | infinite negative => (if negative then ['-'] else []) ++ ['i', 'n', 'f']
  | finite negative significand exponent =>
    (if negative then ['-'] else []) ++
      (if significand = 0 then ['0'] else Decimal.dropTrailingZeros (shortest significand exponent).positional)

end Phrasebook.Binary64
