import Phrasebook.Binary64.Arithmetic
import Phrasebook.Proofs.Rounding

/-!
# Rounding to doubles

A number is rounded to an integer multiple of a power of two that leaves it 53 significant bits (`exists_nearest`,
`exists_rounded_nearest`).  So the outcome is a double (`isDouble_nearest`), and a number that is the size of a double
is kept as it is (`toRat?_nearest_of_isSize`).
-/

namespace Phrasebook.Binary64

open Rounding

variable {negative : Bool} {significand : Nat} {exponent : Int} {x : Rat}

/-! ### Doubles -/

theorem toRat?_finite :
    (finite negative significand exponent).toRat? = some (signed negative (magnitude significand exponent)) :=
  rfl

theorem magnitude_nonneg : 0 ≤ magnitude significand exponent :=
  mul_nonneg (Nat.cast_nonneg _) (zpow_pos (by norm_num) _).le

theorem magnitude_lt_iff {bits : Int} :
    magnitude significand exponent < (2 : Rat) ^ (bits + exponent) ↔ (significand : Rat) < (2 : Rat) ^ bits := by
  rw [magnitude, zpow_add₀ (by norm_num)]
  exact mul_lt_mul_iff_of_pos_right (zpow_pos (by norm_num) _)

/-- A larger exponent is exchanged for a larger significand. -/
theorem magnitude_eq {e f : Int} (h : e ≤ f) :
    magnitude significand f = magnitude (significand * 2 ^ (f - e).toNat) e := by
  obtain ⟨k, rfl⟩ := Int.le.dest h
  rw [magnitude, magnitude, add_sub_cancel_left, Int.toNat_natCast, Nat.cast_mul, mul_assoc, Nat.cast_pow,
    Nat.cast_ofNat, ← zpow_natCast, ← zpow_add₀ (by norm_num), add_comm]

/-- The significand has 53 bits, and the exponent is neither too small nor too large. -/
def IsDouble : Binary64 → Prop
  | nan => True
  | infinite _ => True
  | finite _ significand exponent => significand < 2 ^ 53 ∧ minExponent ≤ exponent ∧ exponent ≤ maxExponent

theorem isDouble_ofBits (bits : UInt64) : IsDouble (ofBits bits) := by
  unfold ofBits
  dsimp only
  split
  · split <;> trivial
  · next hfinite =>
    have hfraction : bits.toNat % leastNormal < leastNormal := Nat.mod_lt _ (by decide)
    have hexponent : bits.toNat >>> 52 % 2048 < 2048 := Nat.mod_lt _ (by omega)
    split <;> (simp only [IsDouble, minExponent, maxExponent, leastNormal] at *; omega)

/-- The absolute value of a finite double. -/
def IsSize (x : Rat) : Prop :=
  ∃ significand exponent, x = magnitude significand exponent ∧ IsDouble (finite false significand exponent)

theorem isSize_of_natCast {n : Nat} (h : n < 2 ^ 53) : IsSize n :=
  ⟨n, 0, by simp [magnitude], h, by decide, by decide⟩

/-! ### The nearest double -/

/-- The exponent at which a number has 53 significant bits, or fewer if it is subnormal. -/
def unitExponent (x : Rat) : Int :=
  max (leadingPlace 2 x - 52) minExponent

theorem two_zpow_leadingPlace (hx : 0 < x) :
    (2 : Rat) ^ leadingPlace 2 x ≤ x ∧ x < (2 : Rat) ^ (leadingPlace 2 x + 1) := by
  exact_mod_cast @zpow_leadingPlace 2 x (by omega) hx

theorem lt_two_zpow_unitExponent (hx : 0 < x) : x < (2 : Rat) ^ (53 + unitExponent x) := by
  refine (two_zpow_leadingPlace hx).2.trans_le (zpow_le_zpow_right₀ (by norm_num) ?_)
  unfold unitExponent
  omega

/-- The digits of `x` in its unit.  If rounding up has reached one more bit, it is exchanged for a larger exponent. -/
structure RoundsTo (x : Rat) (digits significand : Nat) (exponent : Int) : Prop where
  isNearest : IsNearest (x / (2 : Rat) ^ unitExponent x) digits
  size : magnitude significand exponent = magnitude digits (unitExponent x)
  significand_lt : significand < 2 ^ 53
  le_exponent : unitExponent x ≤ exponent
  exponent_le : exponent ≤ unitExponent x + 1
  exponent_eq : digits < 2 ^ 53 → exponent = unitExponent x

theorem exists_nearest (hx : 0 < x) (negative : Bool) : ∃ digits significand exponent,
    RoundsTo x digits significand exponent ∧ nearest negative x =
      if maxExponent < exponent then infinite negative else finite negative significand exponent := by
  have hunit : (0 : Rat) < (2 : Rat) ^ unitExponent x := zpow_pos (by norm_num) _
  have hnonneg : 0 ≤ halfEven (x / (2 : Rat) ^ unitExponent x) :=
    le_halfEven (by rw [Int.cast_zero]; exact (div_pos hx hunit).le)
  have hmost : halfEven (x / (2 : Rat) ^ unitExponent x) ≤ 2 ^ 53 := by
    refine halfEven_le ((div_le_iff₀ hunit).2 ((lt_two_zpow_unitExponent hx).le.trans_eq ?_))
    rw [zpow_add₀ (by norm_num)]
    norm_num
  obtain ⟨digits, hdigits⟩ := Int.eq_ofNat_of_zero_le hnonneg
  rw [hdigits] at hmost
  have hnearest := halfEven_eq_iff.1 hdigits
  refine ⟨digits, ?_⟩
  unfold nearest
  rw [if_neg hx.ne', show max (leadingPlace 2 x - 52) minExponent = unitExponent x from rfl]
  dsimp only
  rw [hdigits, Int.toNat_natCast]
  -- Only the power of two itself has one bit too many, and half of it is the least significand again.
  by_cases hcarry : digits = 1 <<< 53
  · rw [if_pos hcarry]
    refine ⟨leastNormal, unitExponent x + 1, ⟨hnearest, ?_, by decide, by omega, le_rfl, ?_⟩, rfl⟩
    · rw [magnitude_eq (le_add_of_nonneg_right zero_le_one), add_sub_cancel_left, hcarry]
      rfl
    · exact fun hless => absurd hcarry hless.ne
  · rw [if_neg hcarry]
    have hless : digits < 2 ^ 53 := by omega
    exact ⟨digits, unitExponent x, ⟨hnearest, rfl, hless, le_rfl, by omega, fun _ => rfl⟩, rfl⟩

theorem isDouble_nearest (hx : 0 ≤ x) : IsDouble (nearest negative x) := by
  rcases hx.eq_or_lt with rfl | hpos
  · rw [nearest, if_pos rfl]
    exact ⟨by omega, le_rfl, by decide⟩
  · obtain ⟨digits, significand, exponent, h, heq⟩ := exists_nearest hpos negative
    rw [heq]
    split
    · trivial
    · next hmost => exact ⟨h.significand_lt, (le_max_right _ _).trans h.le_exponent, not_lt.1 hmost⟩

private theorem unitExponent_le (hm : significand < 2 ^ 53) (he : minExponent ≤ exponent)
    (hx : 0 < magnitude significand exponent) : unitExponent (magnitude significand exponent) ≤ exponent := by
  have hupper : magnitude significand exponent < (2 : Rat) ^ (53 + exponent) :=
    magnitude_lt_iff.2 (by exact_mod_cast hm)
  have hplace := lt_of_zpow_le_of_lt (by norm_num) (two_zpow_leadingPlace hx).1 hupper
  unfold unitExponent
  omega

private theorem RoundsTo.magnitude_eq_self {digits s m : Nat} {e f : Int} (h : RoundsTo (magnitude m f) digits s e)
    (hunit : unitExponent (magnitude m f) ≤ f) :
    magnitude digits (unitExponent (magnitude m f)) = magnitude m f := by
  have hpower : (2 : Rat) ^ unitExponent (magnitude m f) ≠ 0 := (zpow_pos (by norm_num) _).ne'
  have hinteger : magnitude m f / (2 : Rat) ^ unitExponent (magnitude m f) =
      ((m * 2 ^ (f - unitExponent (magnitude m f)).toNat : Nat) : Int) := by
    nth_rewrite 1 [magnitude_eq hunit]
    exact mul_div_cancel_right₀ _ hpower
  -- An integer is its own nearest one.
  have hdigits := halfEven_eq_iff.2 h.isNearest
  rw [hinteger, halfEven_intCast, Nat.cast_inj] at hdigits
  rw [← hdigits]
  exact (magnitude_eq hunit).symm

/-- The size of a double is not changed by rounding. -/
theorem toRat?_nearest_of_isSize (h : IsSize x) : (nearest negative x).toRat? = some (signed negative x) := by
  obtain ⟨m, f, rfl, hm, hleast, hmost⟩ := h
  rcases Nat.eq_zero_or_pos m with rfl | hpos
  · have hzero : magnitude 0 f = 0 := by simp [magnitude]
    rw [hzero, nearest, if_pos rfl, toRat?_finite]
    simp [magnitude]
  · have hx : 0 < magnitude m f := mul_pos (Nat.cast_pos.2 hpos) (zpow_pos (by norm_num) _)
    have hunit := unitExponent_le hm hleast hx
    obtain ⟨digits, significand, exponent, h, heq⟩ := exists_nearest hx negative
    have hsame := h.magnitude_eq_self hunit
    have hbits : digits < 2 ^ 53 := by
      have hless := lt_two_zpow_unitExponent hx
      nth_rewrite 1 [← hsame] at hless
      exact_mod_cast magnitude_lt_iff.1 hless
    have hexponent := h.exponent_eq hbits
    rw [heq, if_neg (by omega), toRat?_finite, h.size, hsame]

/-- A number that is neither too small nor too large is rounded to 53 significant bits. -/
theorem exists_rounded_nearest (hx : 0 < x) (hleast : -1022 ≤ leadingPlace 2 x) (hmost : leadingPlace 2 x ≤ 1022) :
    ∃ digits : Nat, IsNearest (x / (2 : Rat) ^ (leadingPlace 2 x - 52)) digits ∧
      (nearest negative x).toRat? = some (signed negative (magnitude digits (leadingPlace 2 x - 52))) := by
  have hunit : unitExponent x = leadingPlace 2 x - 52 := by
    unfold unitExponent minExponent
    omega
  obtain ⟨digits, significand, exponent, h, heq⟩ := exists_nearest hx negative
  have hexponent := h.exponent_le
  rw [← hunit]
  refine ⟨digits, h.isNearest, ?_⟩
  rw [heq, if_neg (by unfold maxExponent; omega), toRat?_finite, h.size]

theorem toRat?_ofInt {n : Int} (h : n.natAbs < 2 ^ 53) : (ofInt n).toRat? = some (n : Rat) := by
  rw [ofInt, toRat?_nearest_of_isSize (isSize_of_natCast h), signed]
  rcases lt_or_ge n 0 with hneg | hpos
  · rw [if_pos (decide_eq_true hneg), Nat.cast_natAbs, abs_of_neg hneg, Int.cast_neg, neg_neg]
  · rw [if_neg (by simpa using hpos), Nat.cast_natAbs, abs_of_nonneg hpos]

theorem toRat?_literal {n : Nat} (h : n < 2 ^ 53) : toRat? (OfNat.ofNat n) = some (n : Rat) :=
  toRat?_ofInt h

theorem isDouble_ofInt (n : Int) : IsDouble (ofInt n) :=
  isDouble_nearest (Nat.cast_nonneg _)

end Phrasebook.Binary64
