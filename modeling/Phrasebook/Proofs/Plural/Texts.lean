import Phrasebook.Proofs.Binary64.Reading
import Phrasebook.Proofs.Plural.Integers

/-!
# Counts given as texts

The form for a count depends on nothing but the number it denotes (`index?_congr`).  So a text counts like the value
that is read from it, and an integer like its decimal text (`typed_counts_as_text`): a zero may lose its sign, and that
is all that reading the text as an integer first can change.
-/

namespace Phrasebook.Plural

variable {formCount i j : Nat} {number : Option Rat} {x y : Binary64}

/-- The rule names one index only. -/
theorem IsFormFor.unique (hi : IsFormFor formCount number i) (hj : IsFormFor formCount number j) : i = j := by
  match formCount, hi, hj with
  | 2, ⟨hi, hone⟩, ⟨hj, hone'⟩ =>
    have hzero : i = 0 ↔ j = 0 := hone.trans hone'.symm
    omega
  | 3, ⟨hi, hone, hfew⟩, ⟨hj, hone', hfew'⟩ =>
    have hzero : i = 0 ↔ j = 0 := hone.trans hone'.symm
    have honly : i = 1 ↔ j = 1 := hfew.trans hfew'.symm
    omega
  | 4, ⟨hi, hone, htwo, hfew⟩, ⟨hj, hone', htwo', hfew'⟩ =>
    have hzero : i = 0 ↔ j = 0 := hone.trans hone'.symm
    have honly : i = 1 ↔ j = 1 := htwo.trans htwo'.symm
    have hsecond : i = 2 ↔ j = 2 := hfew.trans hfew'.symm
    omega

theorem index?_congr (hx : x.IsDouble) (hy : y.IsDouble) (h : x.toRat? = y.toRat?) :
    index? x formCount = index? y formCount := by
  cases hi : index? x formCount with
  | none => exact (index?_eq_none_iff.2 (index?_eq_none_iff.1 hi)).symm
  | some i =>
    cases hj : index? y formCount with
    | none =>
      rw [index?_eq_none_iff.2 (index?_eq_none_iff.1 hj)] at hi
      cases hi
    | some j =>
      have hform : IsFormFor formCount y.toRat? i := h ▸ isFormFor_of_index? hx hi
      rw [hform.unique (isFormFor_of_index? hy hj)]

end Phrasebook.Plural

namespace Phrasebook.Evaluation

open Decimal Plural

variable {name t : String} {value v w : Value} {n : Int} {x y : Binary64}

theorem selectForm_congr (hx : x.IsDouble) (hy : y.IsDouble) (h : x.toRat? = y.toRat?) (name : String)
    (forms : List String) : selectForm name x forms = selectForm name y forms := by
  rw [selectForm, selectForm, select?, select?, index?_congr hx hy h]

/-- The values count alike: they are the same, or doubles that denote the same number. -/
inductive CountsAlike : Value → Value → Prop
  | same (value : Value) : CountsAlike value value
  | number {v w : Value} {x y : Binary64} (left : v.toBinary64? = some x) (right : w.toBinary64? = some y)
      (isDouble : x.IsDouble) (isDouble' : y.IsDouble) (toRat?_eq : x.toRat? = y.toRat?) : CountsAlike v w

theorem CountsAlike.map_selectForm (h : CountsAlike v w) (name : String) (forms : List String) :
    v.toBinary64?.map (selectForm name · forms) = w.toBinary64?.map (selectForm name · forms) := by
  cases h with
  | same => rfl
  | number hv hw hx hy hsame => rw [hv, hw, Option.map_some, Option.map_some, selectForm_congr hx hy hsame]

private theorem get?_bind (replacements : Replacements) (name other : String) (value : Value) :
    (replacements.bind name value).get? other = if other = name then some value else replacements.get? other := by
  rw [Replacements.get?, Replacements.bind, List.lookup_cons]
  split <;> simp_all [Replacements.get?]

private theorem get?_bind_self (replacements : Replacements) (name : String) (value : Value) :
    (replacements.bind name value).get? name = some value := by
  rw [get?_bind, if_pos rfl]

theorem pluralization_bind_of_none (h : value.toBinary64? = none) (replacements : Replacements) (name forms : String) :
    pluralization (replacements.bind name value) (.plural name forms) =
      .error (.nonNumericCount name value.display) := by
  simp only [pluralization, get?_bind_self, h]

theorem pluralization_bind_of_some (h : value.toBinary64? = some x) (replacements : Replacements)
    (name forms : String) : pluralization (replacements.bind name value) (.plural name forms) =
      (selectForm name x (Plural.forms forms)).map some := by
  simp only [pluralization, get?_bind_self, h]

/-- What a plural directive can do with a count and its forms: the count is no number, or one of the forms is chosen,
or there is no rule for so many forms. -/
inductive Outcomes (name shown : String) (forms : List String) :
    Option Binary64 → Except EvalError (Option String) → Prop
  | nonNumeric : Outcomes name shown forms none (.error (.nonNumericCount name shown))
  | chosen {count : Binary64} {form : String} (mem : form ∈ forms) :
      Outcomes name shown forms (some count) (.ok (some form))
  | unsupported {count : Binary64} (noRule : isSupported forms.length = false) :
      Outcomes name shown forms (some count) (.error (.unsupportedFormCount name forms.length))

/-- The text of a number is not shown. -/
theorem Outcomes.of_some {shown shown' : String} {forms : List String} {outcome : Except EvalError (Option String)}
    (h : Outcomes name shown forms (some x) outcome) : Outcomes name shown' forms (some x) outcome := by
  cases h with
  | chosen hmem => exact .chosen hmem
  | unsupported hnone => exact .unsupported hnone

theorem outcomes_pluralization (replacements : Replacements) (name : String) (value : Value) (forms : String) :
    Outcomes name value.display (Plural.forms forms) value.toBinary64?
      (pluralization (replacements.bind name value) (.plural name forms)) := by
  cases hcount : value.toBinary64? with
  | none =>
    rw [pluralization_bind_of_none hcount]
    exact .nonNumeric
  | some count =>
    rw [pluralization_bind_of_some hcount]
    unfold selectForm
    cases hselect : select? count (Plural.forms forms) with
    | none => exact .unsupported (select?_eq_none_iff.1 hselect)
    | some form =>
      obtain ⟨index, -, hform⟩ := Option.bind_eq_some_iff.1 hselect
      exact .chosen (List.mem_of_getElem? hform)

theorem CountsAlike.pluralization_eq (h : CountsAlike v w) (replacements : Replacements) (name : String) :
    pluralization (replacements.bind name v) = pluralization (replacements.bind name w) := by
  cases h with
  | same => rfl
  | number hv hw hx hy hsame =>
    funext directive
    cases directive with
    | plural other forms =>
      by_cases hname : other = name
      · subst hname
        rw [pluralization_bind_of_some hv, pluralization_bind_of_some hw, selectForm_congr hx hy hsame]
      · rw [pluralization, pluralization, get?_bind, get?_bind, if_neg hname, if_neg hname]
    | plain | format | reference => rfl

private theorem toInt?_or_readDouble (t : String) :
    Value.read t = Value.read.readDouble t ∨ ∃ n, readInt? t.toList = some n ∧ (Value.read t).toInt? = some n := by
  unfold Value.read
  split
  · next n hn =>
    split
    · next hrange =>
      have hsame : (Int32.ofInt n).toInt = n := Int32.toInt_ofInt_of_le hrange.1 (Int.lt_of_le_sub_one hrange.2)
      exact .inr ⟨n, hn, congrArg some hsame⟩
    · split
      · next hrange =>
        have hsame : (Int64.ofInt n).toInt = n := Int64.toInt_ofInt_of_le hrange.1 (Int.lt_of_le_sub_one hrange.2)
        exact .inr ⟨n, hn, congrArg some hsame⟩
      · exact .inl rfl
  · exact .inl rfl

private theorem toBinary64?_of_read? (h : Binary64.read? t.toList = some x) :
    (Value.text t).toBinary64? = some x := by
  rw [Value.toBinary64?, Binary64.trim_of_read? h, h]

/-- An integer counts like a text that it is read from. -/
theorem countsAlike_of_readInt? (hinteger : value.toInt? = some n) (hread : readInt? t.toList = some n) :
    CountsAlike value (.text t) := by
  obtain ⟨hcount, hmost⟩ := toBinary64?_of_toInt? hinteger
  obtain ⟨x, hx, hsame⟩ := Binary64.exists_read?_of_readInt? hread hmost
  exact .number hcount (toBinary64?_of_read? hx) (Binary64.isDouble_ofInt n) (Binary64.isDouble_of_read? hx) hsame.symm

/-- What is read from a text counts like the text. -/
theorem countsAlike_read (t : String) : CountsAlike (.read t) (.text t) := by
  obtain hread | ⟨n, hn, hinteger⟩ := toInt?_or_readDouble t
  · rw [hread]
    unfold Value.read.readDouble
    split
    · next x hx =>
      have hdouble : x.IsDouble := Binary64.isDouble_of_read? hx
      exact .number rfl (toBinary64?_of_read? hx) hdouble hdouble rfl
    · exact .same _
  · exact countsAlike_of_readInt? hinteger hn

/-- An integer counts like its decimal text. -/
theorem countsAlike_repr (h : value.toInt? = some n) : CountsAlike value (.text n.repr) :=
  countsAlike_of_readInt? h (readInt?_repr n)

/-- A plural directive does the same for a count and for a text that the count is read from, or that is the decimal
text of the count. -/
theorem typed_counts_as_text (h : value = .read t ∨ ∃ n, value.toInt? = some n ∧ t = n.repr)
    (replacements : Replacements) (name : String) :
    (∀ forms : List String, value.toBinary64?.map (selectForm name · forms) =
        (Value.text t).toBinary64?.map (selectForm name · forms)) ∧
      (∀ forms, ∃ outcome, Outcomes name t (Plural.forms forms) value.toBinary64? outcome ∧
        pluralization (replacements.bind name value) (.plural name forms) = outcome ∧
        pluralization (replacements.bind name (.text t)) (.plural name forms) = outcome) ∧
      ∀ text, pluralize (replacements.bind name value) text = pluralize (replacements.bind name (.text t)) text := by
  have halike : CountsAlike value (.text t) := by
    rcases h with rfl | ⟨n, hn, rfl⟩
    · exact countsAlike_read t
    · exact countsAlike_repr hn
  refine ⟨halike.map_selectForm name, fun forms => ⟨_, ?_, rfl, ?_⟩, fun text => ?_⟩
  · have houtcome := outcomes_pluralization replacements name value forms
    cases halike with
    | same => exact houtcome
    | number hcount =>
      rw [hcount] at houtcome ⊢
      exact houtcome.of_some
  · rw [halike.pluralization_eq]
  · rw [pluralize, pluralize, halike.pluralization_eq]

/-- Read as an integer, a zero loses its minus sign.  A large integer counts as the double nearest to it either way. -/
theorem typed_counts_as_text_large :
    Value.read "-0" = .int 0 ∧ (Value.text "-0").toBinary64? = some (.finite true 0 Binary64.minExponent) ∧
      (∀ text, pluralize (Replacements.empty.bind "n" (.int 0)) text =
        pluralize (Replacements.empty.bind "n" (.text "-0")) text) ∧
      (Value.long 9007199254741001).toInt? = some 9007199254741001 ∧
      pluralize (Replacements.empty.bind "n" (.text "9007199254741001")) "{{n.plural(one,few,many)}}" = .ok "many" := by
  have hzero : Value.read "-0" = .int 0 := by decide +kernel
  have hinteger : (Value.long 9007199254741001).toInt? = some 9007199254741001 := by decide
  have hrepr : "9007199254741001" = (9007199254741001 : Int).repr := by decide +kernel
  have halike := (typed_counts_as_text (.inr ⟨_, hinteger, hrepr⟩) Replacements.empty "n").2.2
  refine ⟨hzero, by decide +kernel, (typed_counts_as_text (.inl hzero.symm) Replacements.empty "n").2.2, hinteger, ?_⟩
  rw [← halike]
  decide +kernel

end Phrasebook.Evaluation
