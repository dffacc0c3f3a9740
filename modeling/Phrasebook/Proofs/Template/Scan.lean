import Phrasebook.Proofs.Template.Placeholder
import Phrasebook.Proofs.Template.Reference

/-!
# Scanning

Scanning a text for placeholders or for references cuts it into segments that are not empty and make up the text.  The
directives among them are all those that are written in the text, so whether a piece of text is one of them does not
depend on what stands around it (`scan_finds_what_is_written`).
-/

namespace Phrasebook.Template

theorem ne_empty_of_classifyPlaceholder? {body : String} {directive : Directive}
    (h : classifyPlaceholder? body.toList = some directive) : body ≠ "" := by
  rintro rfl
  cases h

/-- The segments of a text are not empty and make up the text, and the directives among them are those that are written
in the text, whatever stands before and behind them. -/
theorem scan_finds_what_is_written (text : String) :
    (Frame.sources (placeholders text) = text.toList ∧ ∀ segment ∈ placeholders text, segment.source ≠ "") ∧
      (Frame.sources (references text) = text.toList ∧ ∀ segment ∈ references text, segment.source ≠ "") ∧
      (∀ before raw directive, Frame.DirectiveAt (placeholders text) before raw directive ↔
        (∃ body, raw = braced body ∧ body ≠ "" ∧ BraceFree body ∧
          classifyPlaceholder? body.toList = some directive) ∧ ∃ after, text = before ++ raw ++ after) ∧
      (∀ before raw directive, Frame.DirectiveAt (references text) before raw directive ↔
        (∃ key, raw = "$t(" ++ key ++ ")" ∧ key ≠ "" ∧ (∀ c ∈ key.toList, c ≠ '(' ∧ c ≠ ')') ∧
          directive = .reference key) ∧ ∃ after, text = before ++ raw ++ after) ∧
      ∀ before after directive,
        (Frame.DirectiveAt (placeholders (before ++ text ++ after)) before text directive ↔
          Frame.DirectiveAt (placeholders text) "" text directive) ∧
        (Frame.DirectiveAt (references (before ++ text ++ after)) before text directive ↔
          Frame.DirectiveAt (references text) "" text directive) := by
  have hempty : ∃ after, text = "" ++ text ++ after := ⟨"", by simp⟩
  refine ⟨⟨Frame.sources_scan _ _, fun _ => Frame.source_ne_empty_of_mem_scan⟩,
    ⟨Frame.sources_scan _ _, fun _ => Frame.source_ne_empty_of_mem_scan⟩, ?_, ?_, ?_⟩
  · intro before raw directive
    rw [directiveAt_placeholders_iff]
    refine and_congr_left fun _ => exists_congr fun body => and_congr_right fun _ => ?_
    exact ⟨fun h => ⟨ne_empty_of_classifyPlaceholder? h.2, h⟩, fun h => h.2⟩
  · intro before raw directive
    exact Lint.directiveAt_references_iff
  · intro before after directive
    have hhere : ∃ rest, before ++ text ++ after = before ++ text ++ rest := ⟨after, rfl⟩
    constructor
    · simp only [directiveAt_placeholders_iff, hhere, hempty]
    · simp only [Lint.directiveAt_references_iff, hhere, hempty]

example : references "$t(a$t(b)" = [.literal "$", .literal "t(a", .directive "$t(b)" (.reference "b")] := by
  decide +kernel

end Phrasebook.Template
