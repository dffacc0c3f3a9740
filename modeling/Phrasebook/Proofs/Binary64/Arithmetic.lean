import Phrasebook.Proofs.Binary64.Nearest

/-!
# Exact operations on doubles

Truncating a double and taking a remainder of doubles need no rounding (`toRat?_truncate`, `toRat?_remainder`); on
integers these are the operations of the integers (`isEqual_truncate_iff`, `toRat?_remainder_of_int`).  A comparison
with a number is the comparison of what the doubles denote.
-/

namespace Phrasebook.Binary64

open Rounding

variable {x y low high : Binary64} {a b : Rat} {negative : Bool} {significand : Nat} {exponent : Int}

/-! ### Whole parts -/

theorem isSize_floor (h : IsSize a) : IsSize a.floor := by
  obtain ⟨m, e, rfl, hm, hleast, hmost⟩ := h
  rcases le_or_gt 0 e with hwhole | hfraction
  · have hinteger : magnitude m e = ((m * 2 ^ e.toNat : Nat) : Rat) := by
      rw [magnitude_eq hwhole, Int.sub_zero, magnitude, zpow_zero, mul_one]
    refine ⟨m, e, ?_, hm, hleast, hmost⟩
    rw [hinteger, ← Rat.intCast_natCast, Rat.floor_intCast]
  · -- The whole part of a fraction has no more bits than its significand.
    have hpower : (2 : Rat) ^ e ≤ 1 := zpow_le_one_of_nonpos₀ (by norm_num) hfraction.le
    have hle : magnitude m e ≤ m := mul_le_of_le_one_right (Nat.cast_nonneg m) hpower
    have hnonneg : 0 ≤ (magnitude m e).floor := Rat.le_floor_iff.2 (by exact_mod_cast magnitude_nonneg)
    obtain ⟨n, hn⟩ := Int.eq_ofNat_of_zero_le hnonneg
    have hless : (n : Rat) ≤ m := by
      have h := Rat.floor_le (magnitude m e)
      rw [hn] at h
      exact le_trans (by exact_mod_cast h) hle
    rw [hn]
    exact isSize_of_natCast (lt_of_le_of_lt (by exact_mod_cast hless) hm)

theorem toRat?_truncate (h : IsDouble (finite negative significand exponent)) :
    (truncate (finite negative significand exponent)).toRat? =
      some (signed negative (magnitude significand exponent).floor) :=
  toRat?_nearest_of_isSize (isSize_floor ⟨_, _, rfl, h⟩)

/-! ### Remainders -/

theorem natCast_sub_mul_floor (m n : Nat) : (m : Rat) - n * ((m : Rat) / n).floor = (m % n : Nat) := by
  have hfloor : ((m : Rat) / n).floor = ((m / n : Nat) : Int) := Rat.floor_natCast_div_natCast m n
  rw [hfloor, Int.cast_natCast, sub_eq_iff_eq_add]
  exact_mod_cast (Nat.mod_add_div m n).symm

theorem isSize_remainder (ha : IsSize a) (hb : IsSize b) (hpos : 0 < b) : IsSize (a - b * (a / b).floor) := by
  obtain ⟨m, e, rfl, hm, hleast, hmost⟩ := ha
  obtain ⟨n, f, rfl, hn, hleast', hmost'⟩ := hb
  -- Both are multiples of one unit, and so is the remainder.
  have hunit : ∀ A B : Nat, ∀ u : Int, magnitude m e = magnitude A u → magnitude n f = magnitude B u →
      magnitude m e - magnitude n f * (magnitude m e / magnitude n f).floor = magnitude (A % B) u := by
    intro A B u hA hB
    have hpower : (2 : Rat) ^ u ≠ 0 := (zpow_pos (by norm_num) u).ne'
    rw [hA, hB, magnitude, magnitude, magnitude, mul_div_mul_right _ _ hpower, ← natCast_sub_mul_floor]
    ring
  have hnpos : 0 < n := by
    refine Nat.pos_of_ne_zero fun hzero => hpos.ne' ?_
    rw [hzero, magnitude, Nat.cast_zero, zero_mul]
  rcases le_total e f with hle | hle
  · rw [hunit m _ e rfl (magnitude_eq hle)]
    exact ⟨_, e, rfl, (Nat.mod_le _ _).trans_lt hm, hleast, hmost⟩
  · rw [hunit _ n f (magnitude_eq hle) rfl]
    exact ⟨_, f, rfl, (Nat.mod_lt _ hnpos).trans hn, hleast', hmost'⟩

theorem toRat?_remainder {other : Bool} {significand' : Nat} {exponent' : Int}
    (hx : IsDouble (finite negative significand exponent)) (hy : IsDouble (finite other significand' exponent'))
    (hne : magnitude significand' exponent' ≠ 0) :
    ((finite negative significand exponent).remainder (finite other significand' exponent')).toRat? =
      some (signed negative (magnitude significand exponent - magnitude significand' exponent' *
        (magnitude significand exponent / magnitude significand' exponent').floor)) := by
  have hpos := lt_of_le_of_ne magnitude_nonneg hne.symm
  rw [remainder, if_neg hne]
  exact toRat?_nearest_of_isSize (isSize_remainder ⟨_, _, rfl, hx⟩ ⟨_, _, rfl, hy⟩ hpos)

/-! ### Integers -/

theorem exists_finite_of_toRat? (h : x.toRat? = some a) : ∃ negative significand exponent,
    x = finite negative significand exponent ∧ a = signed negative (magnitude significand exponent) := by
  cases x with
  | nan => cases h
  | infinite negative => cases h
  | finite negative significand exponent => exact ⟨_, _, _, rfl, (Option.some.inj h).symm⟩

theorem abs_signed (ha : 0 ≤ a) : |signed negative a| = a := by
  cases negative with
  | false => exact abs_of_nonneg ha
  | true => exact (abs_neg a).trans (abs_of_nonneg ha)

theorem signed_injective : Function.Injective (signed negative) := by
  cases negative with
  | false => exact fun _ _ h => h
  | true => exact neg_injective

theorem signed_intCast (n : Int) : signed negative n = ((if negative then -n else n : Int) : Rat) := by
  cases negative with
  | false => rfl
  | true => exact (Int.cast_neg n).symm

theorem magnitude_eq_natAbs {n : Int} (h : (n : Rat) = signed negative (magnitude significand exponent)) :
    magnitude significand exponent = (n.natAbs : Rat) := by
  rw [Nat.cast_natAbs, Int.cast_abs, h, abs_signed magnitude_nonneg]

/-- The remainder of integers has the sign of the dividend. -/
theorem toRat?_remainder_of_int (hx : IsDouble x) (hy : IsDouble y) {n : Int} {d : Nat}
    (hn : x.toRat? = some (n : Rat)) (hd : y.toRat? = some (d : Rat)) (hne : d ≠ 0) :
    (x.remainder y).toRat? = some ((n.tmod d : Int) : Rat) := by
  obtain ⟨negative, significand, exponent, rfl, hsigned⟩ := exists_finite_of_toRat? hn
  obtain ⟨other, significand', exponent', rfl, hsigned'⟩ := exists_finite_of_toRat? hd
  have hsize := magnitude_eq_natAbs hsigned
  have hsize' : magnitude significand' exponent' = (d : Rat) := @magnitude_eq_natAbs _ _ _ d hsigned'
  rw [toRat?_remainder hx hy (by rw [hsize']; exact Nat.cast_ne_zero.2 hne), hsize, hsize', natCast_sub_mul_floor]
  rw [hsize] at hsigned
  generalize n.natAbs = m at hsigned
  cases negative with
  | false =>
    have hn : (n : Rat) = m := hsigned
    obtain rfl : n = m := by exact_mod_cast hn
    rfl
  | true =>
    have hn : (n : Rat) = -m := hsigned
    obtain rfl : n = -m := by exact_mod_cast hn
    rw [Int.neg_tmod, Int.cast_neg]
    rfl

/-! ### Comparison -/

theorem compare?_of_toRat? (ha : x.toRat? = some a) (hb : y.toRat? = some b) :
    x.compare? y = some (compareOfLessAndEq a b) := by
  obtain ⟨negative, significand, exponent, rfl, rfl⟩ := exists_finite_of_toRat? ha
  obtain ⟨other, significand', exponent', rfl, rfl⟩ := exists_finite_of_toRat? hb
  rfl

theorem isEqual_iff (hb : y.toRat? = some b) : x.isEqual y = true ↔ x.toRat? = some b := by
  cases hx : x.toRat? with
  | none =>
    obtain ⟨other, significand', exponent', rfl, rfl⟩ := exists_finite_of_toRat? hb
    cases x with
    | nan => simp [isEqual, compare?]
    | infinite negative => cases negative <;> simp [isEqual, compare?]
    | finite negative significand exponent => cases hx
  | some a => simp [isEqual, compare?_of_toRat? hx hb, compareOfLessAndEq_eq_eq le_refl not_le]

theorem isLess_iff (ha : x.toRat? = some a) (hb : y.toRat? = some b) : x.isLess y = true ↔ a < b := by
  simp [isLess, compare?_of_toRat? ha hb, compareOfLessAndEq_eq_lt]

theorem isAtMost_iff (ha : x.toRat? = some a) (hb : y.toRat? = some b) : x.isAtMost y = true ↔ a ≤ b := by
  rw [isAtMost, Bool.or_eq_true, isLess_iff ha hb, isEqual_iff hb, ha, Option.some_inj, le_iff_lt_or_eq]

/-- An infinity is beyond one of two numbers. -/
private theorem not_between_of_toRat?_none (hlow : low.toRat? = some a) (hhigh : high.toRat? = some b)
    (hx : x.toRat? = none) : low.isAtMost x = false ∨ x.isAtMost high = false := by
  obtain ⟨_, _, _, rfl, rfl⟩ := exists_finite_of_toRat? hlow
  obtain ⟨_, _, _, rfl, rfl⟩ := exists_finite_of_toRat? hhigh
  cases x with
  | nan => exact .inl rfl
  | infinite negative =>
    cases negative with
    | false => exact .inr rfl
    | true => exact .inl rfl
  | finite negative significand exponent => cases hx

theorem isWithin_iff (hlow : low.toRat? = some a) (hhigh : high.toRat? = some b) :
    x.isWithin low high = true ↔ ∃ c, x.toRat? = some c ∧ a ≤ c ∧ c ≤ b := by
  rw [isWithin, Bool.and_eq_true]
  cases hx : x.toRat? with
  | none => rcases not_between_of_toRat?_none hlow hhigh hx with h | h <;> simp [h]
  | some c => simp [isAtMost_iff hlow hx, isAtMost_iff hx hhigh]

theorem isLess_and_isAtMost_iff (hlow : low.toRat? = some a) (hhigh : high.toRat? = some b) :
    (low.isLess x && x.isAtMost high) = true ↔ ∃ c, x.toRat? = some c ∧ a < c ∧ c ≤ b := by
  rw [Bool.and_eq_true]
  cases hx : x.toRat? with
  | none =>
    rcases not_between_of_toRat?_none hlow hhigh hx with h | h
    · have hless : low.isLess x = false := (Bool.or_eq_false_iff.1 h).1
      simp [hless]
    · simp [h]
  | some c => simp [isLess_iff hlow hx, isAtMost_iff hx hhigh]

/-- A double is its own whole part if it is an integer or infinite. -/
theorem isEqual_truncate_iff (h : IsDouble x) :
    x.isEqual x.truncate = true ↔ (∃ negative, x = infinite negative) ∨ ∃ n : Int, x.toRat? = some (n : Rat) := by
  cases x with
  | nan => simp [isEqual, compare?, toRat?]
  | infinite negative => simp [isEqual, compare?, truncate]
  | finite negative significand exponent =>
    rw [isEqual_iff (toRat?_truncate h), toRat?_finite, Option.some_inj, signed_injective.eq_iff]
    simp only [reduceCtorEq, exists_false, false_or, Option.some_inj]
    constructor
    · intro hfloor
      rw [hfloor, signed_intCast]
      exact ⟨_, rfl⟩
    · rintro ⟨n, hn⟩
      have hsize : magnitude significand exponent = ((n.natAbs : Int) : Rat) := magnitude_eq_natAbs hn.symm
      rw [hsize, Rat.floor_intCast]

end Phrasebook.Binary64
