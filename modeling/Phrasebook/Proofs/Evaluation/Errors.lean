import Phrasebook.Locale
import Phrasebook.Proofs.Evaluation.Calls
import Phrasebook.Proofs.Evaluation.Substitution

/-!
# Where errors come from

The preparation of a template fails in one of three ways, which `Fails` lists.  Nothing else fails: an evaluation that
gives an error makes a call that is entered and whose template cannot be prepared, for this very reason
(`exists_call_of_error`).

Hence an error says what is wrong: the name has a value, and the value and the directive do not go together as the
error tells (`translation_error_is_faithful`).  Without values there is no error.
-/

namespace Phrasebook

namespace Evaluation

/-- How the preparation of a template fails. -/
inductive Fails (replacements : Replacements) (template : String) : EvalError → Prop where
  | format {raw name spec : String} {value : Value} {reason : Format.Error}
      (mem : .directive raw (.format name spec) ∈ Template.placeholders template)
      (bound : replacements.get? name = some value) (fails : Format.renderWith spec value = .error reason) :
      Fails replacements template (.format name spec reason)
  | formCount {text raw name forms : String} {value : Value} {count : Binary64}
      (interpolated : interpolate replacements template = .ok text)
      (mem : .directive raw (.plural name forms) ∈ Template.placeholders text)
      (bound : replacements.get? name = some value) (numeric : value.toBinary64? = some count)
      (unsupported : Plural.isSupported (Plural.forms forms).length = false) :
      Fails replacements template (.unsupportedFormCount name (Plural.forms forms).length)
  | nonNumeric {text raw name forms : String} {value : Value}
      (interpolated : interpolate replacements template = .ok text)
      (mem : .directive raw (.plural name forms) ∈ Template.placeholders text)
      (bound : replacements.get? name = some value) (nonNumeric : value.toBinary64? = none) :
      Fails replacements template (.nonNumericCount name value.display)

variable {replacements : Replacements} {template : String} {error : EvalError}

/-! ### The first two passes -/

/-- A pass fails by one of its directives. -/
private theorem exists_directive_of_substitute_error {replace : Directive → Except EvalError (Option String)}
    {segments : List Segment} (h : substitute replace segments = .error error) :
    ∃ raw directive, .directive raw directive ∈ segments ∧ replace directive = .error error := by
  induction segments with
  | nil => cases h
  | cons segment rest ih =>
    rcases substitute_cons_eq_error.1 h with hhere | ⟨-, hrest⟩
    · cases segment with
      | literal text => cases hhere
      | directive raw directive =>
        rw [substituted, Except.map_eq_error_iff] at hhere
        exact ⟨raw, directive, List.mem_cons_self, hhere⟩
    · obtain ⟨raw, directive, hmem, hfails⟩ := ih hrest
      exact ⟨raw, directive, List.mem_cons_of_mem _ hmem, hfails⟩

/-- The first pass fails by a format directive with a value. -/
private theorem eq_format_of_interpolation_error {directive : Directive}
    (h : interpolation replacements template directive = .error error) :
    ∃ name spec value reason, directive = .format name spec ∧ replacements.get? name = some value ∧
      Format.renderWith spec value = .error reason ∧ error = .format name spec reason := by
  cases directive with
  | format name spec =>
    unfold interpolation at h
    cases hvalue : replacements.get? name with
    | none => simp [hvalue] at h
    | some value =>
      simp only [hvalue, Except.map_eq_error_iff, Except.mapError_eq_error_iff] at h
      obtain ⟨reason, hrender, rfl⟩ := h
      exact ⟨name, spec, value, reason, rfl, hvalue, hrender, rfl⟩
  | plain name =>
    unfold interpolation at h
    dsimp only at h
    split at h <;> cases h
  | plural name forms => cases h
  | reference key => cases h

/-- The second pass fails by a plural directive with a value. -/
private theorem eq_plural_of_pluralization_error {directive : Directive}
    (h : pluralization replacements directive = .error error) :
    ∃ name forms value, directive = .plural name forms ∧ replacements.get? name = some value ∧
      (value.toBinary64? = none ∧ error = .nonNumericCount name value.display ∨
        ∃ count, value.toBinary64? = some count ∧ Plural.isSupported (Plural.forms forms).length = false ∧
          error = .unsupportedFormCount name (Plural.forms forms).length) := by
  cases directive with
  | plural name forms =>
    unfold pluralization at h
    cases hvalue : replacements.get? name with
    | none => simp [hvalue] at h
    | some value =>
      refine ⟨name, forms, value, rfl, hvalue, ?_⟩
      cases hnumber : value.toBinary64? with
      | none =>
        have herror : EvalError.nonNumericCount name value.display = error := by simpa [hvalue, hnumber] using h
        exact .inl ⟨rfl, herror.symm⟩
      | some count =>
        cases hselect : Plural.select? count (Plural.forms forms) with
        | some form => simp [hvalue, hnumber, selectForm, hselect] at h
        | none =>
          have herror : EvalError.unsupportedFormCount name (Plural.forms forms).length = error := by
            simpa [hvalue, hnumber, selectForm, hselect] using h
          exact .inr ⟨count, rfl, Plural.select?_eq_none_iff.1 hselect, herror.symm⟩
  | plain name => cases h
  | format name spec => cases h
  | reference key => cases h

/-- There is no other way to fail. -/
theorem fails_of_prepare_error (h : prepare replacements template = .error error) :
    Fails replacements template error := by
  unfold prepare at h
  cases hinterpolate : interpolate replacements template with
  | error other =>
    rw [hinterpolate] at h
    obtain rfl : other = error := Except.error.inj h
    obtain ⟨raw, directive, hmem, hfails⟩ := exists_directive_of_substitute_error hinterpolate
    obtain ⟨name, spec, value, reason, rfl, hvalue, hrender, rfl⟩ := eq_format_of_interpolation_error hfails
    exact .format hmem hvalue hrender
  | ok text =>
    rw [hinterpolate] at h
    obtain ⟨raw, directive, hmem, hfails⟩ := exists_directive_of_substitute_error h
    obtain ⟨name, forms, value, rfl, hvalue, ⟨hnumber, rfl⟩ | ⟨count, hnumber, hforms, rfl⟩⟩ :=
      eq_plural_of_pluralization_error hfails
    · exact .nonNumeric hinterpolate hmem hvalue hnumber
    · exact .formCount hinterpolate hmem hvalue hnumber hforms

/-! ### Keys -/

/-- The references of a text fail by one of them. -/
private theorem exists_target_of_error {f : String → Context → Outcome} (hf : ∀ key c, (f key c).2.Agree c)
    {segments : List Segment} {c : Context} (h : (expandSegments f segments c).1 = .error error) :
    ∃ target ∈ segments.filterMap Lint.target?, ∃ d, d.Agree c ∧ (f target d).1 = .error error := by
  induction segments generalizing c with
  | nil => cases h
  | cons segment rest ih =>
    cases htarget : Lint.target? segment with
    | none =>
      rw [expandSegments_of_target?_none f rest c htarget, Except.map_eq_error_iff] at h
      rw [List.filterMap_cons_none htarget]
      exact ih h
    | some key =>
      rw [List.filterMap_cons_some htarget]
      cases hresult : (f key c).1 with
      | error other =>
        rw [expandSegments_of_error rest htarget hresult, hresult] at h
        obtain rfl : other = error := Except.error.inj h
        exact ⟨key, List.mem_cons_self, c, Context.Agree.refl c, hresult⟩
      | ok expanded =>
        rw [expandSegments_of_ok rest htarget hresult, Except.map_eq_error_iff] at h
        obtain ⟨target, hmem, d, hd, hfails⟩ := ih h
        exact ⟨target, List.mem_cons_of_mem _ hmem, d, hd.trans (hf key c), hfails⟩

private theorem exists_leads_of_error {tree : Tree} {base : Context} (call : Call) {c : Context}
    (hc : c.Agree (call.context base)) (h : (evalKey tree call.key c).1 = .error error) :
    ∃ other template, Call.Leads tree base call other ∧ (other.context base).refusal? other.key = none ∧
      tree.raw? other.key = some template ∧ Fails base.replacements template error := by
  generalize hkey : call.key = key at h
  induction key, c using key_induction tree generalizing call with
  | refused key c reason hrefusal =>
    rw [evalKey_of_refusal? tree hrefusal] at h
    cases h
  | missing key c hrefusal hraw =>
    rw [evalKey_of_raw?_none hrefusal hraw] at h
    cases h
  | entered key c template hrefusal hraw ih =>
    subst hkey
    rw [evalKey_of_raw? hrefusal hraw] at h
    rw [hc.refusal?] at hrefusal
    have hreplacements : (c.push call.key).replacements = base.replacements := hc.replacements
    cases hprepare : prepare (c.push call.key).replacements template with
    | error other =>
      rw [evalTemplate_of_error tree hprepare] at h
      obtain rfl : other = error := Except.error.inj h
      rw [hreplacements] at hprepare
      exact ⟨call, template, .refl, hrefusal, hraw, fails_of_prepare_error hprepare⟩
    | ok text =>
      rw [evalTemplate_of_ok tree hprepare] at h
      obtain ⟨target, htarget, d, hd, hfails⟩ := exists_target_of_error (agree_evalKey tree) h
      let next : Call := ⟨call.stack ++ [call.key], target⟩
      have hnext : d.Agree (next.context base) := hd.trans (Call.agree_push hc target)
      obtain ⟨other, template', hleads, hfound⟩ := ih target d hd next hnext rfl hfails
      rw [hreplacements] at hprepare
      exact ⟨other, template', .head (.intro hrefusal hraw hprepare htarget) hleads, hfound⟩

/-- An evaluation that fails makes a call that is entered and whose template cannot be prepared. -/
theorem exists_call_of_error {tree : Tree} {key : String} {c : Context} (h : (evalKey tree key c).1 = .error error) :
    ∃ call template, Call.Leads tree c ⟨c.stack, key⟩ call ∧ (call.context c).refusal? call.key = none ∧
      tree.raw? call.key = some template ∧ Fails c.replacements template error :=
  exists_leads_of_error ⟨c.stack, key⟩ (Context.Agree.refl c) h

end Evaluation

namespace Locale

variable {locale : Locale} {key : String} {replacements : Replacements} {error : EvalError}

/-- A translation fails by a template of the active tree, while its key is being expanded. -/
theorem exists_call_of_translate_error (h : locale.translate key replacements = .error error) :
    ∃ tree call template, locale.current = some tree ∧
      Evaluation.Call.Leads tree (.fresh replacements locale.maxDepth) ⟨[], key⟩ call ∧
      (call.context (.fresh replacements locale.maxDepth)).refusal? call.key = none ∧
      tree.raw? call.key = some template ∧ Evaluation.Fails replacements template error := by
  unfold translate evaluate at h
  cases hcurrent : locale.current with
  | none =>
    rw [hcurrent] at h
    cases h
  | some tree =>
    rw [hcurrent] at h
    obtain ⟨call, template, hfound⟩ := Evaluation.exists_call_of_error h
    exact ⟨tree, call, template, rfl, hfound⟩

private theorem eq_text_of_toBinary64?_none {value : Value} (h : value.toBinary64? = none) :
    ∃ s, value = .text s ∧ Binary64.read? (Text.trim s.toList) = none := by
  cases value with
  | text s => exact ⟨s, rfl, h⟩
  | int n => cases h
  | long n => cases h
  | float x => cases h

/-- Each error says what is wrong with a name that has a value: rendering the value with the spec fails for this
reason, or the value is a count but the forms are not two, three or four, or the value is a text that is no number.
Without values there is no error, whatever the messages are. -/
theorem translation_error_is_faithful (locale : Locale) (key : String) (replacements : Replacements) :
    (∀ name spec reason, locale.translate key replacements = .error (.format name spec reason) →
      ∃ value, replacements.get? name = some value ∧ Format.render value (some spec) = .error reason) ∧
    (∀ name count, locale.translate key replacements = .error (.unsupportedFormCount name count) →
      (∃ value number, replacements.get? name = some value ∧ value.toBinary64? = some number) ∧
        count ≠ 2 ∧ count ≠ 3 ∧ count ≠ 4) ∧
    (∀ name text, locale.translate key replacements = .error (.nonNumericCount name text) →
      replacements.get? name = some (.text text) ∧ Binary64.read? (Text.trim text.toList) = none) ∧
    ∃ text, locale.translate key .empty = .ok text := by
  refine ⟨?_, ?_, ?_, ?_⟩
  · intro name spec reason h
    obtain ⟨_, _, _, -, -, -, -, hfails⟩ := exists_call_of_translate_error h
    cases hfails with
    | format _ bound fails => exact ⟨_, bound, fails⟩
  · intro name count h
    obtain ⟨_, _, _, -, -, -, -, hfails⟩ := exists_call_of_translate_error h
    cases hfails with
    | formCount _ _ bound numeric unsupported =>
      exact ⟨⟨_, _, bound, numeric⟩, Plural.isSupported_eq_false_iff.1 unsupported⟩
  · intro name text h
    obtain ⟨_, _, _, -, -, -, -, hfails⟩ := exists_call_of_translate_error h
    generalize herror : EvalError.nonNumericCount name text = error at hfails
    cases hfails with
    | format => cases herror
    | formCount => cases herror
    | nonNumeric _ _ bound nonNumeric =>
      obtain ⟨s, rfl, hread⟩ := eq_text_of_toBinary64?_none nonNumeric
      cases herror
      exact ⟨bound, hread⟩
  · cases hresult : locale.translate key .empty with
    | ok text => exact ⟨text, rfl⟩
    | error error =>
      -- Every way to fail needs a value.
      obtain ⟨_, _, _, -, -, -, -, hfails⟩ := exists_call_of_translate_error hresult
      cases hfails with
      | format _ bound => cases bound
      | formCount _ _ bound => cases bound
      | nonNumeric _ _ bound => cases bound

/-- A spec that does not suit its value, forms without a rule behind a reference, and a count that is no number. -/
theorem translation_error_is_faithful_each :
    let tree : Tree := .object [("a", .scalar "{{n.format(%d)}}"), ("b", .scalar "$t(c)"),
      ("c", .scalar "{{i.plural(one)}}"), ("d", .scalar "{{n.plural(one, other)}}")]
    let locale := Locale.withTree tree
    let replacements : Replacements := .ofList [("i", .int 1), ("n", .text "many")]
    let reason : Format.Error := .incompatible 'd' "string" "many"
    (locale.translate "a" replacements = .error (.format "n" "%d" reason) ∧
      ∃ value, replacements.get? "n" = some value ∧ Format.render value (some "%d") = .error reason) ∧
    (locale.translate "b" replacements = .error (.unsupportedFormCount "i" 1) ∧
      (∃ value number, replacements.get? "i" = some value ∧ value.toBinary64? = some number) ∧
        1 ≠ 2 ∧ 1 ≠ 3 ∧ 1 ≠ 4) ∧
    locale.translate "d" replacements = .error (.nonNumericCount "n" "many") ∧
      replacements.get? "n" = some (.text "many") ∧ Binary64.read? (Text.trim "many".toList) = none := by
  intro tree locale replacements reason
  have hformat : locale.translate "a" replacements = .error (.format "n" "%d" reason) := by decide +kernel
  have hforms : locale.translate "b" replacements = .error (.unsupportedFormCount "i" 1) := by decide +kernel
  have hcount : locale.translate "d" replacements = .error (.nonNumericCount "n" "many") := by decide +kernel
  exact ⟨⟨hformat, (translation_error_is_faithful locale "a" replacements).1 _ _ _ hformat⟩,
    ⟨hforms, (translation_error_is_faithful locale "b" replacements).2.1 _ _ hforms⟩,
    hcount, (translation_error_is_faithful locale "d" replacements).2.2.1 _ _ hcount⟩

end Locale

end Phrasebook
