import Phrasebook.Plural

/-!
# The rule for a number of forms

There is a rule for two, three and four forms (`isSupported_eq_false_iff`).  The rule chooses one of the forms, so there
is a form for every count unless there is no rule (`select?_eq_none_iff`).
-/

namespace Phrasebook.Plural

theorem isSupported_eq_false_iff {formCount : Nat} :
    isSupported formCount = false ↔ formCount ≠ 2 ∧ formCount ≠ 3 ∧ formCount ≠ 4 := by
  simp only [isSupported, Bool.and_eq_false_iff, decide_eq_false_iff_not]
  omega

private theorem oneOther_lt (count : Binary64) : oneOther count < 2 := by
  unfold oneOther
  split <;> omega

private theorem oneFewMany_lt (count : Binary64) : oneFewMany count < 3 := by
  unfold oneFewMany
  dsimp only
  split
  · omega
  · split
    · omega
    · split <;> omega

private theorem oneTwoFewOther_lt (count : Binary64) : oneTwoFewOther count < 4 := by
  unfold oneTwoFewOther
  split
  · omega
  · split
    · omega
    · split <;> omega

variable {count : Binary64} {formCount index : Nat}

/-- The rule chooses one of the forms. -/
theorem lt_of_index? (h : index? count formCount = some index) : index < formCount := by
  unfold index? at h
  split at h
  · exact Option.some.inj h ▸ oneOther_lt _
  · exact Option.some.inj h ▸ oneFewMany_lt _
  · exact Option.some.inj h ▸ oneTwoFewOther_lt _
  · cases h

theorem index?_eq_none_iff : index? count formCount = none ↔ isSupported formCount = false := by
  rw [isSupported_eq_false_iff]
  unfold index?
  split <;> simp_all

/-- There is a form for every count, unless there is no rule. -/
theorem select?_eq_none_iff {forms : List String} :
    select? count forms = none ↔ isSupported forms.length = false := by
  have hrule : index? count forms.length = none ↔ isSupported forms.length = false := index?_eq_none_iff
  rw [← hrule]
  unfold select?
  cases hindex : index? count forms.length with
  | none => simp
  | some index =>
    have hlt := lt_of_index? hindex
    simp [hlt]

end Phrasebook.Plural
