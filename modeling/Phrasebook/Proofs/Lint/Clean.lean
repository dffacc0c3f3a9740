import Phrasebook.Proofs.Evaluation.Assembly
import Phrasebook.Proofs.Evaluation.Errors
import Phrasebook.Proofs.Lint.Warnings

/-!
# Trees without reported directives

If no directive of a tree is reported, no translation fails by the fault of a format spec, as specs are not changed
before they are used.  Plural directives can be made while values are put in, so that they were never looked at.  If
values have no braces, only certain messages make them (`translation_errors_of_clean_tree`).
-/

namespace Phrasebook.Lint

/-- No directive of the tree is reported. -/
structure Clean (tree : Tree) : Prop where
  plural : ∀ key name count, .unsupportedPluralForms key name count ∉ warnings tree
  format : ∀ key name spec error, .invalidFormatSpec key name spec error ∉ warnings tree

variable {tree : Tree} {key text raw name : String}

theorem clean_of_warnings_eq_nil (h : warnings tree = []) : Clean tree := by
  constructor
  · intro key name count
    simp [h]
  · intro key name spec error
    simp [h]

theorem Clean.plural_notMem (h : Clean tree) {forms : String} (hraw : tree.raw? key = some text)
    (hforms : Plural.isSupported (Plural.forms forms).length = false) :
    .directive raw (.plural name forms) ∉ Template.placeholders text := by
  intro hmem
  exact h.plural key name (Plural.forms forms).length
    (unsupportedPluralForms_mem_warnings_iff.2 ⟨text, raw, forms, hraw, hmem, rfl, hforms⟩)

theorem Clean.validate_ne_error (h : Clean tree) {spec : String} {error : Format.Error}
    (hraw : tree.raw? key = some text)
    (hmem : .directive raw (.format name spec) ∈ Template.placeholders text) : Format.validate spec ≠ .error error := by
  intro herror
  exact h.format key name spec error (invalidFormatSpec_mem_warnings_iff.2 ⟨text, raw, hraw, hmem, herror⟩)

open Evaluation in
/-- A translation with a tree without reported directives and values without braces does not fail by the fault of a
format spec.  If it fails by the number of forms of a plural directive, then on the way there a key was entered, and in
its message the first pass has made this directive, which is not in the message, out of literal braces around a
directive that it replaced or with the character of a code point. -/
theorem translation_errors_of_clean_tree {locale : Locale} {replacements : Replacements} (hclean : Clean tree)
    (hcurrent : locale.current = some tree) (hvalues : BraceFreeValues replacements) (key : String) :
    (∀ name spec error, locale.translate key replacements = .error (.format name spec error) →
      error.isOfSpec = false) ∧
    ∀ name count, locale.translate key replacements = .error (.unsupportedFormCount name count) →
      ∃ call template text raw forms, Call.Leads tree (.fresh replacements locale.maxDepth) ⟨[], key⟩ call ∧
        (call.context (.fresh replacements locale.maxDepth)).refusal? call.key = none ∧
        tree.raw? call.key = some template ∧ interpolate replacements template = .ok text ∧
        .directive raw (.plural name forms) ∈ Template.placeholders text ∧ (Plural.forms forms).length = count ∧
        .directive raw (.plural name forms) ∉ Template.placeholders template ∧ Assembles replacements template := by
  have hcall : ∀ error, locale.translate key replacements = .error error → ∃ call template,
      Call.Leads tree (.fresh replacements locale.maxDepth) ⟨[], key⟩ call ∧
        (call.context (.fresh replacements locale.maxDepth)).refusal? call.key = none ∧
        tree.raw? call.key = some template ∧ Fails replacements template error := by
    intro error h
    obtain ⟨other, call, template, hother, hfound⟩ := Locale.exists_call_of_translate_error h
    obtain rfl := Option.some.inj (hcurrent.symm.trans hother)
    exact ⟨call, template, hfound⟩
  constructor
  · intro name spec error h
    obtain ⟨call, template, -, -, hraw, hfails⟩ := hcall _ h
    cases hfails with
    | format mem _ fails =>
      have hvalid : Format.validate spec ≠ .error error := hclean.validate_ne_error hraw mem
      rw [ne_eq, ← Format.isOfSpec_iff_validate_error fails] at hvalid
      exact Bool.eq_false_iff.2 hvalid
  · intro name count h
    obtain ⟨call, template, hleads, hentered, hraw, hfails⟩ := hcall _ h
    cases hfails with
    | formCount interpolated mem _ _ unsupported =>
      -- The directive is not in the message, where it would have been reported.
      have hassembles := (mem_placeholders_or_assembles hvalues interpolated mem).resolve_left
        (hclean.plural_notMem hraw unsupported)
      exact ⟨call, template, _, _, _, hleads, hentered, hraw, interpolated, mem, rfl,
        hclean.plural_notMem hraw unsupported, hassembles⟩

/-- A value between braces, and the character of a code point: nothing is reported, but pluralization fails. -/
theorem clean_tree_with_assembled_plural :
    let tree : Tree := .object [("a", .scalar "\x7b\x7b{{x}}n.plural(one)\x7d\x7d"),
      ("b", .scalar "{{c.format(%c)}}\x7bn.plural(one)\x7d\x7d")]
    let replacements : Replacements := .ofList [("c", .int 123), ("n", .int 1), ("x", .text "")]
    Clean tree ∧ (Locale.withTree tree).current = some tree ∧ Evaluation.BraceFreeValues replacements ∧
      (Locale.withTree tree).translate "a" replacements = .error (.unsupportedFormCount "n" 1) ∧
      (Locale.withTree tree).translate "b" replacements = .error (.unsupportedFormCount "n" 1) := by
  intro tree replacements
  have hclean : Clean tree := clean_of_warnings_eq_nil (by decide +kernel)
  have hvalues : Evaluation.BraceFreeValues replacements :=
    Evaluation.braceFreeValues_of_bindings (by decide +kernel)
  exact ⟨hclean, rfl, hvalues, by decide +kernel, by decide +kernel⟩

open Evaluation in
/-- A reference to a message with a value between braces. -/
theorem translation_errors_of_clean_tree_with_reference :
    let tree : Tree := .object [("a", .scalar "\x7b\x7b{{x}}n.plural(one)\x7d\x7d"),
      ("b", .scalar "{{n.format(%d)}} $t(a)")]
    let locale := Locale.withTree tree
    let replacements : Replacements := .ofList [("n", .int 1), ("x", .text "")]
    Clean tree ∧ locale.current = some tree ∧ BraceFreeValues replacements ∧
    (∀ name spec error, locale.translate "b" replacements = .error (.format name spec error) →
      error.isOfSpec = false) ∧
    locale.translate "b" replacements = .error (.unsupportedFormCount "n" 1) ∧
    ∃ call template text raw forms, Call.Leads tree (.fresh replacements locale.maxDepth) ⟨[], "b"⟩ call ∧
      (call.context (.fresh replacements locale.maxDepth)).refusal? call.key = none ∧
      tree.raw? call.key = some template ∧ interpolate replacements template = .ok text ∧
      .directive raw (.plural "n" forms) ∈ Template.placeholders text ∧ (Plural.forms forms).length = 1 ∧
      .directive raw (.plural "n" forms) ∉ Template.placeholders template ∧ Assembles replacements template := by
  intro tree locale replacements
  have hclean : Clean tree := clean_of_warnings_eq_nil (by decide +kernel)
  have hvalues : BraceFreeValues replacements := braceFreeValues_of_bindings (by decide +kernel)
  have hfails : locale.translate "b" replacements = .error (.unsupportedFormCount "n" 1) := by decide +kernel
  have hcurrent : locale.current = some tree := rfl
  have herrors := translation_errors_of_clean_tree hclean hcurrent hvalues "b"
  exact ⟨hclean, hcurrent, hvalues, herrors.1, hfails, herrors.2 "n" 1 hfails⟩

end Phrasebook.Lint
