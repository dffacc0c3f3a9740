import Phrasebook.Value

/-!
# Integers as doubles

An integer of 64 bits is far below the largest double, so the double nearest to it is a number
(`exists_finite_ofInt`).
-/

namespace Phrasebook.Binary64

private theorem leadingPlace_natCast_le {m : Nat} (h : m < UInt64.size) :
    Rounding.leadingPlace 2 (m : Rat) ≤ 63 := by
  unfold Rounding.leadingPlace
  split
  · have hfloor : (m : Rat).floor = m := by
      rw [← Rat.intCast_natCast, Rat.floor_intCast]
    have hlength : (Nat.toDigits 2 m).length ≤ 64 := (Nat.length_toDigits_le_iff (by omega) (by omega)).2 h
    rw [hfloor, Int.toNat_natCast]
    omega
  · omega

theorem exists_finite_ofInt {n : Int} (h : n.natAbs < UInt64.size) :
    ∃ negative significand exponent, ofInt n = .finite negative significand exponent := by
  have hplace : Rounding.leadingPlace 2 (n.natAbs : Rat) ≤ 63 := leadingPlace_natCast_le h
  unfold ofInt nearest
  split
  · exact ⟨_, _, _, rfl⟩
  · have hexponent : max (Rounding.leadingPlace 2 (n.natAbs : Rat) - 52) minExponent ≤ 11 := by
      unfold minExponent
      omega
    generalize max (Rounding.leadingPlace 2 (n.natAbs : Rat) - 52) minExponent = exponent at hexponent
    dsimp only
    split
    · rw [if_neg (by unfold maxExponent; omega)]
      exact ⟨_, _, _, rfl⟩
    · rw [if_neg (by unfold maxExponent; omega)]
      exact ⟨_, _, _, rfl⟩

end Phrasebook.Binary64
