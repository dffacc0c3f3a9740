import Phrasebook.Locale
import Phrasebook.Proofs.Evaluation.Substitution
import Phrasebook.Proofs.Lint.Warnings

/-!
# Directives that always fail

A directive is reported if it cannot be used.  No report of a directive is a false alarm: the message cannot be
translated with any replacements that have a value for the name of the directive
(`translation_fails_of_directive_warning`).
-/

namespace Phrasebook

/-- If a template cannot be prepared, the keys with this template cannot be translated. -/
theorem Locale.translate_error_of_prepare {locale : Locale} {tree : Tree} {replacements : Replacements}
    {key template : String} {error : EvalError} (hcurrent : locale.current = some tree)
    (hdepth : 1 ≤ locale.maxDepth) (hraw : tree.raw? key = some template)
    (h : Evaluation.prepare replacements template = .error error) : locale.translate key replacements = .error error := by
  let c := Context.fresh replacements locale.maxDepth
  have hrefusal : c.refusal? key = none := Context.refusal?_eq_none.2 ⟨by simp [c, Context.fresh], hdepth⟩
  have htemplate : Evaluation.evalTemplate tree template (c.push key) = (.error error, c.push key) :=
    Evaluation.evalTemplate_of_error (c := c.push key) tree h
  have hkey : (Evaluation.evalKey tree key c).1 = .error error := by
    rw [Evaluation.evalKey_of_raw? hrefusal hraw, htemplate]
  unfold Locale.translate Locale.evaluate
  rw [hcurrent]
  exact hkey

namespace Lint

/-- If a directive of a message is reported, the message cannot be translated with a value for its name. -/
theorem translation_fails_of_directive_warning {tree : Tree} {key name : String} {locale : Locale}
    {replacements : Replacements}
    (hwarning : (∃ count, .unsupportedPluralForms key name count ∈ warnings tree) ∨
      ∃ spec error, .invalidFormatSpec key name spec error ∈ warnings tree)
    (hcurrent : locale.current = some tree) (hdepth : 1 ≤ locale.maxDepth)
    (hbound : (replacements.get? name).isSome) :
    ∃ error, locale.translate key replacements = .error error := by
  rcases hwarning with ⟨count, h⟩ | ⟨spec, reason, h⟩
  · obtain ⟨text, raw, forms, hraw, hmem, rfl, hforms⟩ := unsupportedPluralForms_mem_warnings_iff.1 h
    obtain ⟨error, herror⟩ := Evaluation.prepare_error_of_plural hmem hbound hforms
    exact ⟨error, Locale.translate_error_of_prepare hcurrent hdepth hraw herror⟩
  · obtain ⟨text, raw, hraw, hmem, hspec⟩ := invalidFormatSpec_mem_warnings_iff.1 h
    obtain ⟨error, herror⟩ := Evaluation.prepare_error_of_format hmem hbound hspec
    exact ⟨error, Locale.translate_error_of_prepare hcurrent hdepth hraw herror⟩

/-- A plural directive between values that end and begin with braces. -/
theorem translation_fails_of_plural_between_braces :
    let tree : Tree := .object [("a", .scalar "{{x}}{{n.plural(one)}}{{x}}")]
    let locale := Locale.withTree tree
    let replacements : Replacements := .ofList [("n", .int 1), ("x", .text "\x7d\x7d\x7b\x7b")]
    ((∃ count, .unsupportedPluralForms "a" "n" count ∈ warnings tree) ∨
      ∃ spec error, .invalidFormatSpec "a" "n" spec error ∈ warnings tree) ∧
    locale.current = some tree ∧ 1 ≤ locale.maxDepth ∧ (replacements.get? "n").isSome ∧
    ∃ error, locale.translate "a" replacements = .error error := by
  intro tree locale replacements
  have hmem : .unsupportedPluralForms "a" "n" 1 ∈ warnings tree := by decide +kernel
  have hwarning : (∃ count, .unsupportedPluralForms "a" "n" count ∈ warnings tree) ∨
      ∃ spec error, .invalidFormatSpec "a" "n" spec error ∈ warnings tree := .inl ⟨1, hmem⟩
  have hdepth : 1 ≤ locale.maxDepth := by decide
  have hbound : (replacements.get? "n").isSome := by decide
  exact ⟨hwarning, rfl, hdepth, hbound, translation_fails_of_directive_warning hwarning rfl hdepth hbound⟩

end Lint

end Phrasebook
