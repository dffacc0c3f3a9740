import Phrasebook.Proofs.Binary64.Arithmetic
import Phrasebook.Proofs.Decimal.General
import Phrasebook.Proofs.Format.Numbers

/-!
# Conversions in general notation

A general conversion of a number writes its sign and the number rounded to the significant digits that the precision
asks for (`general_shows_rounded`).
-/

namespace Phrasebook.Format

open Decimal

variable {conversion : Conversion} {value : Value} {upper : Bool} {x : Binary64} {v : Rat}

/-- A general conversion writes the size of a number rounded to the significant digits that the precision asks for, of
which there is at least one: these digits denote it, with an exponent exactly where the rounded number asks for one.
The sign stands in front, and a width only fills up. -/
theorem general_shows_rounded (hkind : conversion.kind = .general upper) (hx : double? value = some x)
    (hv : x.toRat? = some v) :
    ∃ r place mantissa exponent,
      ShowsGeneral |v| (max (conversion.precision.getD defaultPrecision) 1) upper conversion.flags.alternate r place
        mantissa exponent ∧
      convert { conversion with width := none } value =
        .ok (sign conversion.flags x.isNegative ++ (mantissa ++ exponent)) ∧
      convert conversion value =
        .ok (pad conversion.flags (conversion.width.getD 0)
          (.number (sign conversion.flags x.isNegative) (mantissa ++ exponent))) := by
  obtain ⟨negative, significand, power, rfl, rfl⟩ := Binary64.exists_finite_of_toRat? hv
  have hsize : |Binary64.signed negative (Binary64.magnitude significand power)| =
      Binary64.magnitude significand power := Binary64.abs_signed Binary64.magnitude_nonneg
  obtain ⟨r, place, mantissa, exponent, hgeneral, hshows⟩ :=
    exists_showsGeneral (abs_nonneg _) (conversion.precision.getD defaultPrecision) upper conversion.flags.alternate
  have hlayout : layout conversion (Binary64.magnitude significand power) = mantissa ++ exponent := by
    rw [← hgeneral, hsize, layout, hkind]
  have hbody := body_of_makes (.double (.inr (.inr ⟨upper, hkind⟩)) hx)
  rw [doubleDigits, hlayout] at hbody
  refine ⟨r, place, mantissa, exponent, hshows, ?_, convert_of_body hbody conversion.width⟩
  rw [convert_of_body hbody none]
  exact congrArg Except.ok (pad_of_le (Nat.zero_le _))

/-- Rounding up moves the first digit: `9.9999995` has the place of `10`. -/
theorem general_shows_rounded_carry :
    double? (.float (.finite false 5629499252738143 (-49))) = some (.finite false 5629499252738143 (-49)) ∧
      Binary64.toRat? (.finite false 5629499252738143 (-49)) = some (5629499252738143 / 562949953421312) ∧
      ∃ r place mantissa exponent,
        ShowsGeneral |5629499252738143 / 562949953421312| 6 false true r place mantissa exponent ∧
        mantissa ++ exponent = ['1', '0', '.', '0', '0', '0', '0'] := by
  have hv : Binary64.toRat? (.finite false 5629499252738143 (-49)) = some (5629499252738143 / 562949953421312) := by
    decide +kernel
  obtain ⟨r, place, mantissa, exponent, hshows, htext, -⟩ :=
    @general_shows_rounded ⟨{ alternate := true }, none, none, .general false⟩ _ false _ _ rfl
      (show double? (.float (.finite false 5629499252738143 (-49))) = _ from rfl) hv
  have hwritten : convert ⟨{ alternate := true }, none, none, .general false⟩
      (.float (.finite false 5629499252738143 (-49))) = .ok ['1', '0', '.', '0', '0', '0', '0'] := by
    decide +kernel
  exact ⟨rfl, hv, r, place, mantissa, exponent, hshows, Except.ok.inj (htext.symm.trans hwritten)⟩

example : render (.float (.finite false 5629499252738143 (-49))) (some "%g") = .ok "10" := by decide +kernel

end Phrasebook.Format
