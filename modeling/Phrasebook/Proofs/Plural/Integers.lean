import Phrasebook.Proofs.Binary64.Integers
import Phrasebook.Proofs.Evaluation.Substitution
import Phrasebook.Proofs.Plural.Exact

/-!
# The form for an integer

An integer is counted as the double nearest to it.  The rules for two and for four forms only tell numbers up to ten
apart, and these are exact.  For three forms the last digits are those of the double, which may be others if the
integer has more than 53 significant bits (`integer_count_chooses`, `last_digits_rounded_away`).
-/

namespace Phrasebook.Plural

open Rounding

variable {formCount index : Nat} {n m : Int}

private theorem isFormFor_two_iff : IsFormFor 2 (some (n : Rat)) index ↔ index < 2 ∧ (index = 0 ↔ n = 1) := by
  simp only [IsFormFor, Option.some_inj]
  exact_mod_cast Iff.rfl

private theorem isFormFor_four_iff : IsFormFor 4 (some (n : Rat)) index ↔
    index < 4 ∧ (index = 0 ↔ n = 1) ∧ (index = 1 ↔ n = 2) ∧ (index = 2 ↔ 2 < n ∧ n ≤ 10) := by
  simp only [IsFormFor, Option.some_inj, exists_eq_left']
  exact_mod_cast Iff.rfl

/-- Two and four forms do not tell numbers beyond ten apart. -/
theorem isFormFor_of_large (hm : 10 < m) (hn : 10 < n) (hthree : formCount ≠ 3)
    (h : IsFormFor formCount (some (m : Rat)) index) : IsFormFor formCount (some (n : Rat)) index := by
  match formCount, h with
  | 2, h =>
    rw [isFormFor_two_iff] at h ⊢
    omega
  | 3, h => exact absurd rfl hthree
  | 4, h =>
    rw [isFormFor_four_iff] at h ⊢
    omega

/-- `m` stands for `n` among the doubles: it is `n` rounded to 53 significant bits, so `n` itself if it has no more. -/
structure StandsFor (m n : Int) : Prop where
  rounded : IsRounded 2 n 53 m
  exact : ∀ s e : Nat, s < 2 ^ 53 → n = s * 2 ^ e → m = n

theorem exists_standsFor (hn : 0 ≤ n) (hmost : n < 2 ^ 64) : ∃ m : Int, (Binary64.ofInt n).toRat? = some (m : Rat) ∧
    StandsFor m n ∧ (m = n ∨ 10 < m ∧ 10 < n) := by
  obtain ⟨m, hvalue, hrounded, hsmall, hlarge⟩ := Binary64.exists_rounded_ofInt hn hmost
  refine ⟨m, hvalue, ⟨hrounded, fun s e hs hsplit => ?_⟩, by omega⟩
  have hexact := Binary64.toRat?_ofInt_of_eq_mul_pow hn hmost hs hsplit
  exact_mod_cast Option.some.inj (hvalue.symm.trans hexact)

end Phrasebook.Plural

namespace Phrasebook.Evaluation

open Plural

variable {replacements : Replacements} {name forms raw text : String} {value : Value} {n : Int}
  {front back : List Segment}

theorem toBinary64?_of_toInt? (h : value.toInt? = some n) :
    value.toBinary64? = some (.ofInt n) ∧ n.natAbs < 2 ^ 64 := by
  cases value with
  | int k =>
    obtain rfl := Option.some.inj h
    have hmost := k.toInt_lt
    have hleast := k.le_toInt
    exact ⟨rfl, by omega⟩
  | long k =>
    obtain rfl := Option.some.inj h
    have hmost := k.toInt_lt
    have hleast := k.le_toInt
    exact ⟨rfl, by omega⟩
  | float x => cases h
  | text s => cases h

private theorem substitute_around {replace : Directive → Except EvalError (Option String)} {directive : Directive}
    {here : String} (h : replace directive = .ok (some here)) (result : String) :
    substitute replace (front ++ .directive raw directive :: back) = .ok result ↔ ∃ before after,
      substitute replace front = .ok before ∧ substitute replace back = .ok after ∧
      result = before ++ (here ++ after) := by
  have hhere : substituted replace (.directive raw directive) = .ok here := by
    rw [substituted, h]
    rfl
  simp only [substitute_append_eq_ok, substitute_cons_eq_ok, hhere]
  constructor
  · rintro ⟨before, _, hbefore, ⟨_, after, hsame, hafter, rfl⟩, rfl⟩
    obtain rfl := Except.ok.inj hsame
    exact ⟨before, after, hbefore, hafter, rfl⟩
  · rintro ⟨before, after, hbefore, hafter, rfl⟩
    exact ⟨before, _, hbefore, ⟨here, after, rfl, hafter, rfl⟩, rfl⟩

/-- A plural directive with an integer that is not negative is replaced by the form for the integer that stands for it
among the doubles.  For two and for four forms that is the form for the integer itself. -/
theorem integer_count_chooses (hvalue : replacements.get? name = some value) (hinteger : value.toInt? = some n)
    (hn : 0 ≤ n) (hlength : (Plural.forms forms).length = 2 ∨ (Plural.forms forms).length = 3 ∨
      (Plural.forms forms).length = 4)
    (htext : Template.placeholders text = front ++ .directive raw (.plural name forms) :: back) :
    ∃ m index, ∃ hindex : index < (Plural.forms forms).length,
      StandsFor m n ∧ IsFormFor (Plural.forms forms).length (some (m : Rat)) index ∧
      ((Plural.forms forms).length ≠ 3 → IsFormFor (Plural.forms forms).length (some (n : Rat)) index) ∧
      ∀ result, pluralize replacements text = .ok result ↔ ∃ before after,
        substitute (pluralization replacements) front = .ok before ∧
        substitute (pluralization replacements) back = .ok after ∧
        result = before ++ ((Plural.forms forms)[index] ++ after) := by
  obtain ⟨hcount, hmost⟩ := toBinary64?_of_toInt? hinteger
  obtain ⟨m, hm, hstands, hnear⟩ := exists_standsFor hn (by omega)
  obtain ⟨index, hindex, hform, hrule⟩ := exists_selectForm_eq_ok (Binary64.isDouble_ofInt n) name hlength
  rw [hm] at hrule
  have hreplace : pluralization replacements (.plural name forms) = .ok (some (Plural.forms forms)[index]) := by
    rw [pluralization, hvalue]
    dsimp only
    rw [hcount]
    dsimp only
    rw [hform]
    rfl
  refine ⟨m, index, hindex, hstands, hrule, fun hthree => ?_, fun result => ?_⟩
  · obtain rfl | ⟨hlarge, hlarge'⟩ := hnear
    · exact hrule
    · exact isFormFor_of_large hlarge hlarge' hthree hrule
  · rw [pluralize, htext]
    exact substitute_around hreplace result

/-- The greatest integer is counted as the power of two after it. -/
theorem integer_count_chooses_greatest :
    (Value.long Int64.maxValue).toInt? = some 9223372036854775807 ∧
      Template.placeholders "{{n.plural(one,few,many)}}" =
        [.directive "{{n.plural(one,few,many)}}" (.plural "n" "one,few,many")] ∧
      ∃ m index, ∃ hindex : index < (Plural.forms "one,few,many").length,
        StandsFor m 9223372036854775807 ∧ IsFormFor (Plural.forms "one,few,many").length (some (m : Rat)) index ∧
        pluralize (Replacements.empty.bind "n" (.long Int64.maxValue)) "{{n.plural(one,few,many)}}" =
          .ok (Plural.forms "one,few,many")[index] := by
  have hinteger : (Value.long Int64.maxValue).toInt? = some 9223372036854775807 := by decide
  have htext : Template.placeholders "{{n.plural(one,few,many)}}" =
      [.directive "{{n.plural(one,few,many)}}" (.plural "n" "one,few,many")] := by decide +kernel
  have hvalue : (Replacements.empty.bind "n" (.long Int64.maxValue)).get? "n" = some (.long Int64.maxValue) := by
    decide
  obtain ⟨m, index, hindex, hstands, hform, -, hresult⟩ :=
    integer_count_chooses hvalue hinteger (by decide) (by decide +kernel)
      (show _ = [] ++ _ :: [] from htext)
  exact ⟨hinteger, htext, m, index, hindex, hstands, hform, (hresult _).2 ⟨"", "", rfl, rfl, by simp⟩⟩

/-- An integer that ends in one, but not in eleven, is not counted so if the double nearest to it ends in zero. -/
theorem last_digits_rounded_away :
    (Value.long 9007199254741001).toInt? = some 9007199254741001 ∧
      IsFormFor (Plural.forms "one,few,many").length (some 9007199254741001) 0 ∧
      (Plural.forms "one,few,many")[0]? = some "one" ∧
      pluralize (Replacements.empty.bind "n" (.long 9007199254741001)) "{{n.plural(one,few,many)}}" = .ok "many" := by
  have hlength : (Plural.forms "one,few,many").length = 3 := by decide +kernel
  have hone : IsOne (some 9007199254741001) := ⟨9007199254741001, by norm_num, by decide, by decide⟩
  refine ⟨by decide, ?_, by decide +kernel, by decide +kernel⟩
  rw [hlength]
  exact ⟨by omega, iff_of_true rfl hone, iff_of_false (by omega) (not_isFew_of_isOne hone)⟩

end Phrasebook.Evaluation
