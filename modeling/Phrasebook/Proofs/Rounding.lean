import Mathlib.Data.Int.Log
import Mathlib.Data.Rat.Floor
import Mathlib.Tactic.Linarith
import Mathlib.Tactic.Positivity
import Phrasebook.Rounding

/-!
# Nearest integers and first digits

The rounded integer is the nearest one, and even if two are equally near (`isNearest_halfEven`); no other integer is
that (`IsNearest.unique`).  The place of the first digit is the logarithm (`leadingPlace_eq_log`), so that the powers of
the base on both sides of it enclose the number (`zpow_leadingPlace`).
-/

namespace Phrasebook.Rounding

/-! ### Nearest integers -/

/-- No integer is nearer to `x`; if another one is as near, `n` is the even one. -/
structure IsNearest (x : Rat) (n : Int) : Prop where
  within : |x - n| ≤ 1 / 2
  even_of_tie : |x - n| = 1 / 2 → n % 2 = 0

theorem isNearest_halfEven (x : Rat) : IsNearest x (halfEven x) := by
  have hbelow : (x.floor : Rat) ≤ x := Rat.floor_le x
  have habove : x < x.floor + 1 := by
    have h := Rat.lt_floor_add_one x
    rwa [Int.cast_add, Int.cast_one] at h
  have hrest : |x - x.floor| = x - x.floor := abs_of_nonneg (by linarith)
  have hother : |x - (x.floor + 1)| = x.floor + 1 - x := by
    rw [abs_sub_comm]
    exact abs_of_nonneg (by linarith)
  unfold halfEven
  dsimp only
  split
  · next hless => exact ⟨by rw [hrest]; linarith, fun htie => by rw [hrest] at htie; linarith⟩
  · split
    · next htie => exact ⟨by rw [hrest]; linarith, fun _ => htie.2⟩
    · next hless hnot =>
      refine ⟨?_, fun htie => ?_⟩ <;> rw [Int.cast_add, Int.cast_one, hother] at *
      · linarith
      · have hodd : x.floor % 2 ≠ 0 := fun heven => hnot ⟨by linarith, heven⟩
        omega

theorem IsNearest.unique {x : Rat} {m n : Int} (hm : IsNearest x m) (hn : IsNearest x n) : m = n := by
  have hdistance : |(m : Rat) - n| ≤ |x - m| + |x - n| := by
    rw [abs_sub_comm x m]
    exact abs_sub_le _ _ _
  have hnear : |(m : Rat) - n| ≤ 1 := by linarith [hm.within, hn.within]
  have hclose : |m - n| ≤ 1 := by
    rw [← Int.cast_sub, ← Int.cast_abs] at hnear
    exact_mod_cast hnear
  by_contra hne
  -- Different nearest integers are one apart and both half a unit away, but they are not both even.
  have hone : |m - n| = 1 := le_antisymm hclose (Int.one_le_abs (sub_ne_zero.2 hne))
  have hcast : |(m : Rat) - n| = 1 := by
    rw [← Int.cast_sub, ← Int.cast_abs, hone, Int.cast_one]
  have hevenm := hm.even_of_tie (by linarith [hm.within, hn.within])
  have hevenn := hn.even_of_tie (by linarith [hm.within, hn.within])
  rcases (abs_eq zero_le_one).1 hone with heq | heq <;> omega

theorem halfEven_eq_iff {x : Rat} {n : Int} : halfEven x = n ↔ IsNearest x n := by
  constructor
  · rintro rfl
    exact isNearest_halfEven x
  · exact (isNearest_halfEven x).unique

theorem halfEven_eq_of_abs_lt {x : Rat} {n : Int} (h : |x - n| < 1 / 2) : halfEven x = n :=
  halfEven_eq_iff.2 ⟨h.le, fun htie => absurd htie h.ne⟩

@[simp] theorem halfEven_intCast (n : Int) : halfEven n = n :=
  halfEven_eq_of_abs_lt (by norm_num)

/-- Rounding does not pass an integer. -/
theorem le_halfEven {x : Rat} {n : Int} (h : (n : Rat) ≤ x) : n ≤ halfEven x := by
  have hnear := (abs_le.1 (isNearest_halfEven x).within).2
  have hless : (n : Rat) < halfEven x + 1 := by linarith
  exact Int.le_of_lt_add_one (by exact_mod_cast hless)

theorem halfEven_le {x : Rat} {n : Int} (h : x ≤ n) : halfEven x ≤ n := by
  have hnear := (abs_le.1 (isNearest_halfEven x).within).1
  have hless : (halfEven x : Rat) < n + 1 := by linarith
  exact Int.le_of_lt_add_one (by exact_mod_cast hless)

/-! ### First digits -/

variable {base : Nat} {x : Rat}

theorem length_toDigits_eq_iff (hbase : 1 < base) {n k : Nat} :
    (Nat.toDigits base n).length = k + 1 ↔ n < base ^ (k + 1) ∧ (k = 0 ∨ base ^ k ≤ n) := by
  have hupper : (Nat.toDigits base n).length ≤ k + 1 ↔ n < base ^ (k + 1) :=
    Nat.length_toDigits_le_iff hbase (by omega)
  have hpos : 0 < (Nat.toDigits base n).length := Nat.length_toDigits_pos
  rcases Nat.eq_zero_or_pos k with rfl | hk
  · omega
  · have hlower : (Nat.toDigits base n).length ≤ k ↔ n < base ^ k := Nat.length_toDigits_le_iff hbase hk
    omega

private theorem rat_ceil_eq (x : Rat) : x.ceil = ⌈x⌉ :=
  le_antisymm (Rat.ceil_le_iff.2 (Int.le_ceil x)) (Int.ceil_le.2 Rat.le_ceil)

theorem leadingPlace_eq_log (hbase : 1 < base) (hx : 0 < x) : leadingPlace base x = Int.log base x := by
  unfold leadingPlace
  split
  · next hone =>
    have hfloor : x.floor.toNat = ⌊x⌋₊ := Int.floor_toNat x
    have hpos : ⌊x⌋₊ ≠ 0 := (Nat.floor_pos.2 hone).ne'
    have hlength : (Nat.toDigits base ⌊x⌋₊).length = Nat.log base ⌊x⌋₊ + 1 :=
      (length_toDigits_eq_iff hbase).2
        ⟨Nat.lt_pow_succ_log_self hbase _, .inr (Nat.pow_log_le_self base hpos)⟩
    rw [Int.log_of_one_le_right base hone, hfloor, hlength]
    omega
  · next hone =>
    have hceil : (1 / x).ceil.toNat = ⌈x⁻¹⌉₊ := by
      rw [rat_ceil_eq, one_div]
      exact Int.ceil_toNat _
    have hlarge : 1 < ⌈x⁻¹⌉₊ := by
      rw [Nat.lt_ceil, Nat.cast_one]
      exact (one_lt_inv₀ hx).2 (not_le.1 hone)
    obtain ⟨k, hk⟩ : ∃ k, Nat.clog base ⌈x⁻¹⌉₊ = k + 1 :=
      Nat.exists_eq_add_one.2 (Nat.clog_pos hbase hlarge)
    have hupper : ⌈x⁻¹⌉₊ ≤ base ^ (k + 1) := (Nat.clog_le_iff_le_pow hbase).1 hk.le
    have hlower : base ^ k < ⌈x⁻¹⌉₊ := (Nat.lt_clog_iff_pow_lt hbase).1 (by omega)
    have hlength : (Nat.toDigits base (⌈x⁻¹⌉₊ - 1)).length = k + 1 :=
      (length_toDigits_eq_iff hbase).2 ⟨by omega, .inr (by omega)⟩
    rw [Int.log_of_right_le_one base (not_le.1 hone).le, hceil, hlength, hk]

/-- The powers of the base around a number. -/
theorem zpow_leadingPlace (hbase : 1 < base) (hx : 0 < x) :
    (base : Rat) ^ leadingPlace base x ≤ x ∧ x < (base : Rat) ^ (leadingPlace base x + 1) := by
  rw [leadingPlace_eq_log hbase hx]
  exact ⟨Int.zpow_log_le_self hbase hx, Int.lt_zpow_succ_log_self hbase x⟩

theorem lt_of_zpow_le_of_lt {base : Rat} {m n : Int} (hbase : 1 < base) (hm : base ^ m ≤ x) (hn : x < base ^ n) :
    m < n :=
  (zpow_lt_zpow_iff_right₀ hbase).1 (hm.trans_lt hn)

/-! ### Significant digits -/

/-- The first digit of `x` stands at this place; zero has its digit at place zero. -/
def HasPlace (base x : Rat) (place : Int) : Prop :=
  (x = 0 ∧ place = 0) ∨ (base ^ place ≤ x ∧ x < base ^ (place + 1))

/-- `r` is `x` rounded to `count` significant digits, a half to the even last digit. -/
def IsRounded (base x : Rat) (count : Nat) (r : Rat) : Prop :=
  ∃ place digits : Int, HasPlace base x place ∧ IsNearest (x / base ^ (place + 1 - count)) digits ∧
    r = digits * base ^ (place + 1 - count)

end Phrasebook.Rounding
