import Phrasebook.Evaluation
import Phrasebook.Proofs.Binary64.Arithmetic
import Phrasebook.Proofs.Plural

/-!
# The form for a double

Whole parts, remainders and comparisons of doubles are exact, so the form for a count is the one that the rule names for
the number it denotes (`isFormFor_of_index?`, `form_by_exact_rule`).
-/

namespace Phrasebook.Plural

open Binary64

/-- An integer that ends in one, but not in eleven. -/
def IsOne (value : Option Rat) : Prop :=
  ∃ n : Int, value = some (n : Rat) ∧ n.tmod 10 = 1 ∧ n.tmod 100 ≠ 11

/-- An integer that ends in two to four, but not in twelve to fourteen. -/
def IsFew (value : Option Rat) : Prop :=
  ∃ n : Int, value = some (n : Rat) ∧ (2 ≤ n.tmod 10 ∧ n.tmod 10 ≤ 4) ∧ ¬ (12 ≤ n.tmod 100 ∧ n.tmod 100 ≤ 14)

/-- The rule for so many forms names this index for a count with this value.  A double that is not a number, or
infinite, has no value. -/
def IsFormFor (formCount : Nat) (value : Option Rat) (index : Nat) : Prop :=
  match formCount with
  | 2 => index < 2 ∧ (index = 0 ↔ value = some 1)
  | 3 => index < 3 ∧ (index = 0 ↔ IsOne value) ∧ (index = 1 ↔ IsFew value)
  | 4 => index < 4 ∧ (index = 0 ↔ value = some 1) ∧ (index = 1 ↔ value = some 2) ∧
      (index = 2 ↔ ∃ x, value = some x ∧ 2 < x ∧ x ≤ 10)
  | _ => False

variable {count : Binary64} {formCount index : Nat} {n : Int}

theorem isOne_intCast_iff : IsOne (some (n : Rat)) ↔ n.tmod 10 = 1 ∧ n.tmod 100 ≠ 11 := by
  simp [IsOne]

theorem isFew_intCast_iff :
    IsFew (some (n : Rat)) ↔ (2 ≤ n.tmod 10 ∧ n.tmod 10 ≤ 4) ∧ ¬ (12 ≤ n.tmod 100 ∧ n.tmod 100 ≤ 14) := by
  simp [IsFew]

theorem not_isFew_of_isOne {value : Option Rat} (h : IsOne value) : ¬ IsFew value := by
  obtain ⟨n, rfl, hdigit, -⟩ := h
  rw [isFew_intCast_iff]
  omega

private theorem toRat?_two : toRat? 2 = some 2 := by
  exact_mod_cast @toRat?_literal 2 (by omega)

private theorem toRat?_ten : toRat? 10 = some 10 := by
  exact_mod_cast @toRat?_literal 10 (by omega)

private theorem isEqual_one_iff : count.isEqual 1 = true ↔ count.toRat? = some 1 :=
  isEqual_iff (by exact_mod_cast @toRat?_literal 1 (by omega))

private theorem isFormFor_oneOther (count : Binary64) : IsFormFor 2 count.toRat? (oneOther count) := by
  unfold oneOther
  split
  · next hone => exact ⟨by omega, fun _ => isEqual_one_iff.1 hone, fun _ => rfl⟩
  · next hone => exact ⟨by omega, nofun, fun hvalue => absurd (isEqual_one_iff.2 hvalue) hone⟩

private theorem isFormFor_oneTwoFewOther (count : Binary64) : IsFormFor 4 count.toRat? (oneTwoFewOther count) := by
  have hone : count.isEqual 1 = true ↔ count.toRat? = some 1 := isEqual_one_iff
  have htwo : count.isEqual 2 = true ↔ count.toRat? = some 2 := isEqual_iff toRat?_two
  have hfew : (Binary64.isLess 2 count && count.isAtMost 10) = true ↔ ∃ x, count.toRat? = some x ∧ 2 < x ∧ x ≤ 10 :=
    isLess_and_isAtMost_iff toRat?_two toRat?_ten
  unfold oneTwoFewOther
  split
  · next h =>
    rw [hone.1 h]
    exact ⟨by omega, by simp, by simp, by norm_num⟩
  · next hnotOne =>
    split
    · next h =>
      rw [htwo.1 h]
      exact ⟨by omega, by norm_num, by simp, by norm_num⟩
    · next hnotTwo =>
      split
      · next h => exact ⟨by omega, by simp [← hone, hnotOne], by simp [← htwo, hnotTwo], by simp [hfew.1 h]⟩
      · next hnotFew =>
        exact ⟨by omega, by simp [← hone, hnotOne], by simp [← htwo, hnotTwo], by simp only [← hfew, hnotFew]; simp⟩

private theorem toRat?_remainder_literal (hcount : count.IsDouble) (hvalue : count.toRat? = some (n : Rat)) {k : Nat}
    (hk : k < 2 ^ 53) (hne : k ≠ 0) :
    (count.remainder (OfNat.ofNat k)).toRat? = some ((n.tmod k : Int) : Rat) :=
  toRat?_remainder_of_int hcount (isDouble_ofInt k) hvalue (toRat?_literal hk) hne

private theorem isEqual_literal_iff {x : Binary64} {k : Nat} (hk : k < 2 ^ 53) (hx : x.toRat? = some (n : Rat)) :
    x.isEqual (OfNat.ofNat k) = true ↔ n = k := by
  rw [isEqual_iff (toRat?_literal hk), hx, Option.some_inj]
  exact_mod_cast Iff.rfl

private theorem isWithin_literal_iff {x : Binary64} {j k : Nat} (hj : j < 2 ^ 53) (hk : k < 2 ^ 53)
    (hx : x.toRat? = some (n : Rat)) : x.isWithin (OfNat.ofNat j) (OfNat.ofNat k) = true ↔ (j : Int) ≤ n ∧ n ≤ k := by
  rw [isWithin_iff (toRat?_literal hj) (toRat?_literal hk), hx]
  simp only [Option.some_inj, exists_eq_left']
  exact_mod_cast Iff.rfl

private theorem lastDigits_iff (hcount : count.IsDouble) (hvalue : count.toRat? = some (n : Rat)) :
    (((count.remainder 10).isEqual 1 && ! (count.remainder 100).isEqual 11) = true ↔ IsOne count.toRat?) ∧
      (((count.remainder 10).isWithin 2 4 && ! (count.remainder 100).isWithin 12 14) = true ↔ IsFew count.toRat?) := by
  have hdigit := @toRat?_remainder_literal _ _ hcount hvalue 10 (by omega) (by omega)
  have hdigits := @toRat?_remainder_literal _ _ hcount hvalue 100 (by omega) (by omega)
  have hone := @isEqual_literal_iff _ _ 1 (by omega) hdigit
  have heleven := @isEqual_literal_iff _ _ 11 (by omega) hdigits
  have hfew := @isWithin_literal_iff _ _ 2 4 (by omega) (by omega) hdigit
  have hteens := @isWithin_literal_iff _ _ 12 14 (by omega) (by omega) hdigits
  rw [hvalue, isOne_intCast_iff, isFew_intCast_iff, Bool.and_eq_true, Bool.and_eq_true, Bool.not_eq_true',
    Bool.not_eq_true', ← Bool.not_eq_true, ← Bool.not_eq_true]
  exact ⟨and_congr hone (not_congr heleven), and_congr hfew (not_congr hteens)⟩

/-- An infinity has no last digits, and nothing compares to what is not a number. -/
private theorem oneFewMany_infinite (negative : Bool) : oneFewMany (infinite negative) = 2 := by
  have hwhole : (infinite negative).isEqual (infinite negative).truncate = true := by
    simp [isEqual, compare?, truncate]
  have hequal : ∀ y, nan.isEqual y = false := fun _ => rfl
  have hwithin : ∀ low high, nan.isWithin low high = false := by
    intro low high
    cases low <;> rfl
  unfold oneFewMany
  dsimp only
  rw [hwhole, show (infinite negative).remainder 10 = nan from rfl, hequal, hwithin]
  rfl

private theorem isFormFor_oneFewMany (hcount : count.IsDouble) : IsFormFor 3 count.toRat? (oneFewMany count) := by
  have hmany : ¬ IsOne count.toRat? → ¬ IsFew count.toRat? → IsFormFor 3 count.toRat? 2 :=
    fun hone hfew => ⟨by omega, iff_of_false (by omega) hone, iff_of_false (by omega) hfew⟩
  by_cases hwhole : count.isEqual count.truncate = true
  · -- An infinity is its own whole part, so it gets as far as the remainders.
    obtain ⟨negative, rfl⟩ | ⟨n, hvalue⟩ := (isEqual_truncate_iff hcount).1 hwhole
    · rw [oneFewMany_infinite]
      exact hmany nofun nofun
    · obtain ⟨hone, hfew⟩ := lastDigits_iff hcount hvalue
      unfold oneFewMany
      rw [hwhole, Bool.not_true, if_neg Bool.false_ne_true]
      dsimp only
      split
      · next h =>
        have hnotFew := not_isFew_of_isOne (hone.1 h)
        exact ⟨by omega, iff_of_true rfl (hone.1 h), iff_of_false (by omega) hnotFew⟩
      · next hnotOne =>
        split
        · next h => exact ⟨by omega, iff_of_false (by omega) (mt hone.2 hnotOne), iff_of_true rfl (hfew.1 h)⟩
        · next hnotFew => exact hmany (mt hone.2 hnotOne) (mt hfew.2 hnotFew)
  · have hvalue : ∀ n : Int, count.toRat? ≠ some (n : Rat) :=
      fun n hn => hwhole ((isEqual_truncate_iff hcount).2 (.inr ⟨n, hn⟩))
    have hindex : oneFewMany count = 2 := by
      rw [oneFewMany, if_pos (by simpa using hwhole)]
    rw [hindex]
    exact hmany (fun ⟨n, hn, _⟩ => hvalue n hn) fun ⟨n, hn, _⟩ => hvalue n hn

theorem isFormFor_of_index? (hcount : count.IsDouble) (h : index? count formCount = some index) :
    IsFormFor formCount count.toRat? index := by
  unfold index? at h
  split at h
  · exact Option.some.inj h ▸ isFormFor_oneOther count
  · exact Option.some.inj h ▸ isFormFor_oneFewMany hcount
  · exact Option.some.inj h ▸ isFormFor_oneTwoFewOther count
  · cases h

end Phrasebook.Plural

namespace Phrasebook.Evaluation

open Plural

variable {count : Binary64}

theorem exists_selectForm_eq_ok (hcount : count.IsDouble) (name : String) {forms : List String}
    (hlength : forms.length = 2 ∨ forms.length = 3 ∨ forms.length = 4) : ∃ index, ∃ hindex : index < forms.length,
      selectForm name count forms = .ok forms[index] ∧ IsFormFor forms.length count.toRat? index := by
  cases hindex : index? count forms.length with
  | none =>
    have hnone := isSupported_eq_false_iff.1 (index?_eq_none_iff.1 hindex)
    omega
  | some index =>
    have hless : index < forms.length := lt_of_index? hindex
    refine ⟨index, hless, ?_, isFormFor_of_index? hcount hindex⟩
    rw [selectForm, select?, hindex, Option.bind_some, List.getElem?_eq_getElem hless]

theorem selectForm_eq_error (name : String) {forms : List String}
    (hlength : forms.length ≠ 2 ∧ forms.length ≠ 3 ∧ forms.length ≠ 4) :
    selectForm name count forms = .error (.unsupportedFormCount name forms.length) := by
  rw [selectForm, select?_eq_none_iff.2 (isSupported_eq_false_iff.2 hlength)]

/-- A form is chosen from every list of two, three or four, and from no other: the one that the rule for so many forms
names for the number the count denotes, in exact arithmetic.  Whatever its bits, a double is such a count
(`Binary64.isDouble_ofBits`). -/
theorem form_by_exact_rule (hcount : count.IsDouble) (name : String) (forms : List String) :
    ((∃ error, selectForm name count forms = .error error) ↔
        forms.length ≠ 2 ∧ forms.length ≠ 3 ∧ forms.length ≠ 4) ∧
      (forms.length = 2 ∨ forms.length = 3 ∨ forms.length = 4 → ∃ index, ∃ hindex : index < forms.length,
        selectForm name count forms = .ok forms[index] ∧ IsFormFor forms.length count.toRat? index) := by
  refine ⟨⟨?_, fun hlength => ⟨_, selectForm_eq_error name hlength⟩⟩, exists_selectForm_eq_ok hcount name⟩
  rintro ⟨error, herror⟩
  by_contra hlength
  obtain ⟨index, hindex, hform, -⟩ := exists_selectForm_eq_ok hcount name (show forms.length = 2 ∨ _ by omega)
  rw [hform] at herror
  cases herror

/-- A count beyond `2 ^ 53`, which ends in four. -/
theorem form_by_exact_rule_large :
    (Binary64.ofBits 0x4340000000000001).IsDouble ∧
      (Binary64.ofBits 0x4340000000000001).toRat? = some 9007199254740994 ∧
      ∃ index, ∃ hindex : index < ["one", "few", "many"].length,
        selectForm "n" (.ofBits 0x4340000000000001) ["one", "few", "many"] = .ok ["one", "few", "many"][index] ∧
        IsFormFor 3 (some 9007199254740994) index := by
  have hvalue : (Binary64.ofBits 0x4340000000000001).toRat? = some 9007199254740994 := by decide +kernel
  have hform := (form_by_exact_rule (Binary64.isDouble_ofBits 0x4340000000000001) "n" ["one", "few", "many"]).2
    (by decide)
  rw [hvalue] at hform
  exact ⟨Binary64.isDouble_ofBits _, hvalue, hform⟩

example : selectForm "n" (.ofBits 0x4340000000000001) ["one", "few", "many"] = .ok "few" := by decide +kernel

end Phrasebook.Evaluation
