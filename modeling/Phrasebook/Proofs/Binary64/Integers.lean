import Phrasebook.Proofs.Binary64.Nearest

/-!
# Integers rounded to doubles

The double nearest to a natural number of 64 bits is the number rounded to 53 significant bits, a half to even; it is
an integer (`exists_rounded_ofInt`).  A number that has no more significant bits is kept
(`toRat?_ofInt_of_eq_mul_pow`).
-/

namespace Phrasebook.Binary64

open Rounding

variable {n : Int}

private theorem leadingPlace_bounds (hn : 0 < n) (hmost : n < 2 ^ 64) :
    0 ≤ leadingPlace 2 (n : Rat) ∧ leadingPlace 2 (n : Rat) < 64 := by
  obtain ⟨hlower, hupper⟩ := @two_zpow_leadingPlace n (by exact_mod_cast hn)
  have hone : (2 : Rat) ^ (0 : Int) ≤ n := by
    rw [zpow_zero]
    exact_mod_cast hn
  have hless : (n : Rat) < (2 : Rat) ^ (64 : Int) := by exact_mod_cast hmost
  have hleast := lt_of_zpow_le_of_lt (by norm_num) hone hupper
  have hgreatest := lt_of_zpow_le_of_lt (by norm_num) hlower hless
  omega

private theorem ofInt_of_nonneg (hn : 0 ≤ n) : ofInt n = nearest false n := by
  rw [ofInt, Nat.cast_natAbs, abs_of_nonneg hn, decide_eq_false (by omega)]

theorem isRounded_ofInt (hn : 0 ≤ n) (hmost : n < 2 ^ 64) : ∃ r, (ofInt n).toRat? = some r ∧ IsRounded 2 n 53 r := by
  rw [ofInt_of_nonneg hn]
  rcases hn.eq_or_lt with rfl | hpos
  · refine ⟨0, by decide +kernel, 0, 0, .inl ⟨rfl, rfl⟩, ?_, by simp⟩
    rw [Int.cast_zero, zero_div]
    exact halfEven_eq_iff.1 (halfEven_intCast 0)
  · have hx : (0 : Rat) < n := by exact_mod_cast hpos
    obtain ⟨hleast, hgreatest⟩ := leadingPlace_bounds hpos hmost
    obtain ⟨digits, hnearest, heq⟩ := @exists_rounded_nearest false n hx (by omega) (by omega)
    have hunit : leadingPlace 2 (n : Rat) + 1 - ((53 : Nat) : Int) = leadingPlace 2 (n : Rat) - 52 := by omega
    refine ⟨_, heq, leadingPlace 2 (n : Rat), digits, .inr (two_zpow_leadingPlace hx), ?_, ?_⟩ <;> rw [hunit]
    · exact hnearest
    · rfl

/-- From `2 ^ 53` on, a number is rounded to an integer, which is not smaller than that either. -/
theorem exists_intCast_of_isRounded {r : Rat} (hn : 2 ^ 53 ≤ n) (h : IsRounded 2 n 53 r) :
    ∃ m : Int, r = m ∧ 2 ^ 53 ≤ m := by
  obtain ⟨place, digits, hplace, hnearest, rfl⟩ := h
  have hx : (2 : Rat) ^ (53 : Int) ≤ n := by exact_mod_cast hn
  obtain ⟨hzero, -⟩ | ⟨hlower, hupper⟩ := hplace
  · rw [hzero] at hx
    norm_num at hx
  · have hplace := lt_of_zpow_le_of_lt (by norm_num) hx hupper
    obtain ⟨k, rfl⟩ : ∃ k : Nat, place = 53 + k := ⟨(place - 53).toNat, by omega⟩
    have hunit : (53 + k : Int) + 1 - ((53 : Nat) : Int) = ((k + 1 : Nat) : Int) := by omega
    rw [hunit, zpow_natCast] at hnearest ⊢
    have hdigits : 2 ^ 52 ≤ digits := by
      rw [← halfEven_eq_iff.2 hnearest]
      refine le_halfEven ((le_div_iff₀ (by positivity)).2 (le_trans (le_of_eq ?_) hlower))
      rw [zpow_add₀ (by norm_num), zpow_natCast, pow_succ]
      norm_num
      ring
    have htwo : (2 : Int) ≤ 2 ^ (k + 1) := by
      rw [pow_succ]
      have hpos : (0 : Int) < 2 ^ k := by positivity
      omega
    refine ⟨digits * 2 ^ (k + 1), by push_cast; ring, ?_⟩
    calc (2 : Int) ^ 53 = 2 ^ 52 * 2 := by norm_num
      _ ≤ digits * 2 ^ (k + 1) := mul_le_mul hdigits htwo (by omega) (by omega)

/-- The double nearest to a 64-bit number: it is an integer, and beyond `2 ^ 53` if the number is. -/
theorem exists_rounded_ofInt (hn : 0 ≤ n) (hmost : n < 2 ^ 64) : ∃ m : Int, (ofInt n).toRat? = some (m : Rat) ∧
    IsRounded 2 n 53 m ∧ (n < 2 ^ 53 → m = n) ∧ (2 ^ 53 ≤ n → 2 ^ 53 ≤ m) := by
  obtain ⟨r, heq, hrounded⟩ := isRounded_ofInt hn hmost
  rcases lt_or_ge n (2 ^ 53) with hless | hlarge
  · have hexact := @toRat?_ofInt n (by omega)
    obtain rfl : r = n := Option.some.inj (heq.symm.trans hexact)
    exact ⟨n, heq, hrounded, fun _ => rfl, by omega⟩
  · obtain ⟨m, rfl, hm⟩ := exists_intCast_of_isRounded hlarge hrounded
    exact ⟨m, heq, hrounded, by omega, fun _ => hm⟩

theorem toRat?_ofInt_of_eq_mul_pow (hn : 0 ≤ n) (hmost : n < 2 ^ 64) {s e : Nat} (hs : s < 2 ^ 53) (h : n = s * 2 ^ e) :
    (ofInt n).toRat? = some (n : Rat) := by
  rcases Nat.eq_zero_or_pos s with rfl | hpos
  · exact toRat?_ofInt (by omega)
  · have he : e < 64 := by
      have hle : 2 ^ e ≤ s * 2 ^ e := Nat.le_mul_of_pos_left _ hpos
      have hless : s * 2 ^ e < 2 ^ 64 := by exact_mod_cast h ▸ hmost
      exact (Nat.pow_lt_pow_iff_right (by omega)).1 (hle.trans_lt hless)
    have hsize : IsSize n := by
      refine ⟨s, e, ?_, hs, by unfold minExponent; omega, by unfold maxExponent; omega⟩
      rw [h, magnitude, zpow_natCast]
      push_cast
      rfl
    rw [ofInt_of_nonneg hn, toRat?_nearest_of_isSize hsize]
    rfl

end Phrasebook.Binary64
