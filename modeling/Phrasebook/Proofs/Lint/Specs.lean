import Phrasebook.Proofs.Format.Rendering
import Phrasebook.Proofs.Lint.Warnings

/-!
# Format specs that are reported

A format directive is reported if its spec is not valid.  Such a spec is unusable.  The converse fails for the valid
specs that refuse their own precision, and for no others (`reported_spec_iff_unusable`): they are unusable but not
reported.
-/

namespace Phrasebook.Lint

open Format in
/-- What is reported of a format directive in a message is that its spec is not valid.  This is the same as that no
value can be rendered with the spec, except for the valid specs with a precision that their conversion refuses: no value
can be rendered with one of them either. -/
theorem reported_spec_iff_unusable (spec : String) :
    (∀ tree key text raw name, Tree.raw? tree key = some text →
      .directive raw (.format name spec) ∈ Template.placeholders text →
        ((∃ error, .invalidFormatSpec key name spec error ∈ warnings tree) ↔
          ∃ error, validate spec = .error error)) ∧
    (((∃ error, validate spec = .error error) ↔ Unusable spec) ↔ ¬ RefusesPrecision spec) ∧
    (RefusesPrecision spec → Unusable spec) := by
  refine ⟨?_, ⟨?_, ?_⟩, ?_⟩
  · intro tree key text raw name hraw hmem
    constructor
    · rintro ⟨error, h⟩
      obtain ⟨_, _, -, -, herror⟩ := invalidFormatSpec_mem_warnings_iff.1 h
      exact ⟨error, herror⟩
    · rintro ⟨error, herror⟩
      exact ⟨error, invalidFormatSpec_mem_warnings_iff.2 ⟨text, raw, hraw, hmem, herror⟩⟩
  · intro hiff hrefuses
    -- A spec that refuses its precision is valid.
    obtain ⟨error, herror⟩ := hiff.2 (unusable_iff.2 (.inr hrefuses))
    obtain ⟨pieces, _, hvalidate, -⟩ := hrefuses
    rw [hvalidate] at herror
    cases herror
  · intro hrefuses
    rw [unusable_iff, or_iff_left hrefuses]
  · intro hrefuses
    exact unusable_iff.2 (.inr hrefuses)

/-- An integer with a precision: no value can be rendered, and nothing is reported. -/
theorem precision_of_integer_not_reported :
    ¬ ((∃ error, Format.validate "%.2d" = .error error) ↔
        ∀ value, ∃ error, Format.render value (some "%.2d") = .error error) ∧
      warnings (.object [("a", .scalar "{{n.format(%.2d)}}")]) = [] := by
  let conversion : Format.Conversion := ⟨{}, none, some 2, .decimal⟩
  have hvalidate : Format.validate "%.2d" = .ok [.conversion conversion] := by decide +kernel
  have hrefuses : Format.RefusesPrecision "%.2d" :=
    ⟨[.conversion conversion], conversion, hvalidate, List.mem_singleton_self _, rfl, rfl⟩
  constructor
  · intro hiff
    obtain ⟨error, herror⟩ := hiff.2 (Format.unusable_iff.2 (.inr hrefuses))
    rw [hvalidate] at herror
    cases herror
  · decide +kernel

end Phrasebook.Lint
