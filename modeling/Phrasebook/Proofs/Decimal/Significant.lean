import Phrasebook.Decimal.Layout
import Phrasebook.Proofs.Rounding

/-!
# Rounding to significant digits

Digits and place that are computed for a count of significant digits are those of the rounded number, also where
rounding up reaches the next power of ten (`isSignificant`).  The same digits come out when the number is rounded at
the place of its last significant digit, as it is for a fixed layout (`halfEven_eq_significant`).
-/

namespace Phrasebook.Decimal

open Rounding

variable {x : Rat} {places : Nat}

private theorem ten_zpow_pos (e : Int) : (0 : Rat) < (10 : Rat) ^ e :=
  zpow_pos (by norm_num) e

private theorem ten_zpow_add (m n : Int) : (10 : Rat) ^ (m + n) = (10 : Rat) ^ m * (10 : Rat) ^ n :=
  zpow_add₀ (by norm_num) m n

private theorem ten_zpow_natCast (n : Nat) : (10 : Rat) ^ (n : Int) = ((10 ^ n : Nat) : Rat) := by
  rw [zpow_natCast, Nat.cast_pow, Nat.cast_ofNat]

private theorem ten_zpow_leadingPlace (hx : 0 < x) :
    (10 : Rat) ^ leadingPlace 10 x ≤ x ∧ x < (10 : Rat) ^ (leadingPlace 10 x + 1) := by
  exact_mod_cast @zpow_leadingPlace 10 x (by omega) hx

/-- The number rounded at the last place, before a carry is looked at. -/
private theorem rounded_bounds (hx : 0 < x) (places : Nat) :
    ∃ n : Nat, halfEven (x / (10 : Rat) ^ (leadingPlace 10 x - places)) = n ∧
      10 ^ places ≤ n ∧ n ≤ 10 ^ (places + 1) := by
  obtain ⟨hlower, hupper⟩ := ten_zpow_leadingPlace hx
  generalize leadingPlace 10 x = place at hlower hupper ⊢
  have hunit := ten_zpow_pos (place - places)
  have hleast : (((10 ^ places : Nat) : Int) : Rat) ≤ x / (10 : Rat) ^ (place - places) := by
    rw [Int.cast_natCast, ← ten_zpow_natCast, le_div_iff₀ hunit, ← ten_zpow_add, add_sub_cancel]
    exact hlower
  have hmost : x / (10 : Rat) ^ (place - places) ≤ (((10 ^ (places + 1) : Nat) : Int) : Rat) := by
    rw [Int.cast_natCast, ← ten_zpow_natCast, div_le_iff₀ hunit, ← ten_zpow_add]
    refine hupper.le.trans_eq (congrArg _ ?_)
    push_cast
    ring
  have hge := le_halfEven hleast
  have hle := halfEven_le hmost
  refine ⟨(halfEven (x / (10 : Rat) ^ (place - places))).toNat, ?_, ?_, ?_⟩ <;> omega

/-- Either the digits are kept, or rounding up has reached the next power of ten. -/
private theorem significant_cases (hx : 0 < x) (places : Nat) :
    ∃ n : Nat, halfEven (x / (10 : Rat) ^ (leadingPlace 10 x - places)) = n ∧
      ((10 ^ places ≤ n ∧ n < 10 ^ (places + 1) ∧ significant x places = (n, leadingPlace 10 x)) ∨
        (n = 10 ^ (places + 1) ∧ significant x places = (10 ^ places, leadingPlace 10 x + 1))) := by
  obtain ⟨n, hn, hleast, hmost⟩ := rounded_bounds hx places
  have hcarry : (Nat.toDigits 10 n).length = places + 2 ↔ n = 10 ^ (places + 1) := by
    rw [length_toDigits_eq_iff (by omega)]
    have hstep : 10 ^ (places + 1 + 1) = 10 * 10 ^ (places + 1) := Nat.pow_succ'
    have hpos : 0 < 10 ^ (places + 1) := Nat.pow_pos (by omega)
    omega
  refine ⟨n, hn, ?_⟩
  unfold significant
  rw [if_neg hx.ne']
  dsimp only
  rw [hn, Int.toNat_natCast]
  by_cases h : n = 10 ^ (places + 1)
  · have hdiv : n / 10 = 10 ^ places := by
      rw [h, Nat.pow_succ]
      exact Nat.mul_div_cancel _ (by omega)
    rw [if_pos (hcarry.2 h), hdiv]
    exact .inr ⟨h, rfl⟩
  · rw [if_neg (mt hcarry.1 h)]
    exact .inl ⟨hleast, by omega, rfl⟩

/-- `digits` with the first of them at `place` are `x` rounded to one digit before the point and `places` after it. -/
structure IsSignificant (x : Rat) (places digits : Nat) (place : Int) : Prop where
  least : 10 ^ places ≤ digits
  less : digits < 10 ^ (places + 1)
  rounded : IsRounded 10 x (places + 1) (digits * (10 : Rat) ^ (place - places))

theorem isSignificant (hx : 0 < x) (places : Nat) :
    IsSignificant x places (significant x places).1 (significant x places).2 := by
  obtain ⟨n, hn, hcases⟩ := significant_cases hx places
  have hplace : HasPlace 10 x (leadingPlace 10 x) := .inr (ten_zpow_leadingPlace hx)
  have hunit : leadingPlace 10 x + 1 - ((places + 1 : Nat) : Int) = leadingPlace 10 x - places := by
    push_cast
    ring
  have hrounded : IsRounded 10 x (places + 1) (n * (10 : Rat) ^ (leadingPlace 10 x - places)) := by
    refine ⟨leadingPlace 10 x, n, hplace, ?_, ?_⟩ <;> rw [hunit]
    · exact halfEven_eq_iff.1 hn
    · rw [Int.cast_natCast]
  rcases hcases with ⟨hleast, hless, hsignificant⟩ | ⟨rfl, hsignificant⟩ <;> rw [hsignificant]
  · exact ⟨hleast, hless, hrounded⟩
  · refine ⟨le_rfl, Nat.pow_lt_pow_right (by omega) (by omega), ?_⟩
    -- One digit less, but each is worth ten times as much.
    have hsame : ((10 ^ places : Nat) : Rat) * (10 : Rat) ^ (leadingPlace 10 x + 1 - places) =
        ((10 ^ (places + 1) : Nat) : Rat) * (10 : Rat) ^ (leadingPlace 10 x - places) := by
      rw [← ten_zpow_natCast, ← ten_zpow_natCast, ← ten_zpow_add, ← ten_zpow_add]
      congr 1
      push_cast
      ring
    rw [hsame]
    exact hrounded

theorem IsSignificant.hasPlace {digits : Nat} {place : Int} (h : IsSignificant x places digits place) :
    HasPlace 10 (digits * (10 : Rat) ^ (place - places)) place := by
  have hunit := ten_zpow_pos (place - places)
  have hleast : (10 : Rat) ^ (places : Int) ≤ digits := by
    rw [ten_zpow_natCast]
    exact_mod_cast h.least
  have hless : (digits : Rat) < (10 : Rat) ^ ((places + 1 : Nat) : Int) := by
    rw [ten_zpow_natCast]
    exact_mod_cast h.less
  refine .inr ⟨?_, ?_⟩
  · calc (10 : Rat) ^ place = (10 : Rat) ^ (places : Int) * (10 : Rat) ^ (place - places) := by
          rw [← ten_zpow_add, add_sub_cancel]
      _ ≤ _ := mul_le_mul_of_nonneg_right hleast hunit.le
  · calc (digits : Rat) * (10 : Rat) ^ (place - places)
        < (10 : Rat) ^ ((places + 1 : Nat) : Int) * (10 : Rat) ^ (place - places) := mul_lt_mul_of_pos_right hless hunit
      _ = (10 : Rat) ^ (place + 1) := by
          rw [← ten_zpow_add]
          congr 1
          push_cast
          ring

/-- Rounded at the place of the last significant digit, a number has its significant digits. -/
theorem halfEven_eq_significant (hx : 0 < x) {decimals : Nat}
    (h : (decimals : Int) = places - (significant x places).2) :
    halfEven (x * (10 : Rat) ^ decimals) = (significant x places).1 := by
  obtain ⟨n, hn, ⟨-, -, hsignificant⟩ | ⟨rfl, hsignificant⟩⟩ := significant_cases hx places <;>
    rw [hsignificant] at h ⊢
  · have hscaled : x * (10 : Rat) ^ decimals = x / (10 : Rat) ^ (leadingPlace 10 x - places) := by
      rw [div_eq_mul_inv, ← zpow_neg, ← zpow_natCast, h, neg_sub]
    rw [hscaled, hn]
  · -- The number is half a unit of the last digit away from the power of ten, so a twentieth of the next unit.
    have hscaled : x * (10 : Rat) ^ decimals = x / (10 : Rat) ^ (leadingPlace 10 x - places) / 10 := by
      have hexponent : (10 : Rat) ^ (leadingPlace 10 x - places) * 10 = (10 : Rat) ^ (-(decimals : Int)) := by
        rw [← zpow_add_one₀ (by norm_num), h]
        congr 1
        ring
      rw [div_div, hexponent, zpow_neg, zpow_natCast, div_inv_eq_mul]
    have hnear := (halfEven_eq_iff.1 hn).within
    have hpower : (((10 ^ (places + 1) : Nat) : Int) : Rat) = (10 ^ places : Nat) * 10 := by
      rw [Int.cast_natCast, Nat.pow_succ, Nat.cast_mul, Nat.cast_ofNat]
    rw [hpower] at hnear
    rw [hscaled]
    refine halfEven_eq_of_abs_lt ?_
    rw [Int.cast_natCast]
    obtain ⟨hbelow, habove⟩ := abs_le.1 hnear
    exact abs_lt.2 ⟨by linarith, by linarith⟩

end Phrasebook.Decimal
