import Phrasebook.Proofs.Evaluation.Stack
import Phrasebook.Proofs.Format.Rendering
import Phrasebook.Proofs.Plural
import Phrasebook.Proofs.Template.Placeholder

/-!
# Substitution

The first two passes put a text in the place of each segment (`substitute_cons_eq_ok`, `substitute_cons_eq_error`).  If
a pass succeeds, so does each segment by itself, and its text is in the result (`exists_of_substitute_ok`).  Hence a
format directive with a value fails if its spec is not valid, and a plural directive with a value fails if there is no
rule for its forms, even when it is not evaluated before the values around it have been put in
(`prepare_error_of_format`, `prepare_error_of_plural`).

Where a scan cuts literal text does not matter to a pass (`substitute_scan_append_iff`).
-/

namespace Phrasebook

namespace Evaluation

variable {replace : Directive → Except EvalError (Option String)}

/-- The text that takes the place of a segment. -/
def substituted (replace : Directive → Except EvalError (Option String)) : Segment → Except EvalError String
  | .literal text => .ok text
  | .directive raw directive => (replace directive).map (·.getD raw)

theorem substitute_cons_eq_ok {segment : Segment} {rest : List Segment} {text : String} :
    substitute replace (segment :: rest) = .ok text ↔ ∃ here more, substituted replace segment = .ok here ∧
      substitute replace rest = .ok more ∧ text = here ++ more := by
  cases segment with
  | literal literal => simp [substitute, substituted, @eq_comm _ text]
  | directive raw directive =>
    cases hreplace : replace directive <;> simp [substitute, substituted, hreplace, @eq_comm _ text]

theorem substitute_cons_eq_error {segment : Segment} {rest : List Segment} {error : EvalError} :
    substitute replace (segment :: rest) = .error error ↔ substituted replace segment = .error error ∨
      (∃ here, substituted replace segment = .ok here) ∧ substitute replace rest = .error error := by
  cases segment with
  | literal literal => simp [substitute, substituted]
  | directive raw directive => cases hreplace : replace directive <;> simp [substitute, substituted, hreplace]

/-- Parts of a text are replaced one after the other. -/
theorem substitute_append_eq_ok {front back : List Segment} {text : String} :
    substitute replace (front ++ back) = .ok text ↔ ∃ before after, substitute replace front = .ok before ∧
      substitute replace back = .ok after ∧ text = before ++ after := by
  induction front generalizing text with
  | nil => simp [substitute]
  | cons segment rest ih =>
    simp only [List.cons_append, substitute_cons_eq_ok, ih]
    constructor
    · rintro ⟨here, _, hhere, ⟨before, after, hbefore, hafter, rfl⟩, rfl⟩
      exact ⟨_, after, ⟨here, before, hhere, hbefore, rfl⟩, hafter, String.append_assoc.symm⟩
    · rintro ⟨_, after, ⟨here, before, hhere, hbefore, rfl⟩, hafter, rfl⟩
      exact ⟨here, _, hhere, ⟨before, after, hbefore, hafter, rfl⟩, String.append_assoc⟩

/-- The text of each segment is in the result. -/
theorem exists_of_substitute_ok {segments : List Segment} {segment : Segment} {text : String}
    (hmem : segment ∈ segments) (h : substitute replace segments = .ok text) :
    ∃ before here after, substituted replace segment = .ok here ∧ text = before ++ here ++ after := by
  induction segments generalizing text with
  | nil => cases hmem
  | cons first rest ih =>
    obtain ⟨here, more, hfirst, hrest, rfl⟩ := substitute_cons_eq_ok.1 h
    rcases List.mem_cons.1 hmem with rfl | hmem
    · exact ⟨"", here, more, hfirst, by simp⟩
    · obtain ⟨before, inner, after, hsegment, rfl⟩ := ih hmem hrest
      exact ⟨here ++ before, inner, after, hsegment, by simp only [String.append_assoc]⟩

/-- A directive that fails makes the pass fail. -/
theorem substitute_error_of_mem {segments : List Segment} {raw : String} {directive : Directive} {error : EvalError}
    (hmem : .directive raw directive ∈ segments) (h : replace directive = .error error) :
    ∃ error, substitute replace segments = .error error := by
  cases hresult : substitute replace segments with
  | error error => exact ⟨error, rfl⟩
  | ok text =>
    obtain ⟨_, here, _, hhere, -⟩ := exists_of_substitute_ok hmem hresult
    rw [substituted, h] at hhere
    cases hhere

/-- A pass that replaces nothing leaves the text as it is. -/
theorem substitute_of_none {segments : List Segment}
    (h : ∀ raw directive, .directive raw directive ∈ segments → replace directive = .ok none) :
    substitute replace segments = .ok (String.ofList (Frame.sources segments)) := by
  induction segments with
  | nil => rfl
  | cons segment rest ih =>
    have hhere : substituted replace segment = .ok segment.source := by
      cases segment with
      | literal text => rfl
      | directive raw directive =>
        rw [substituted, h raw directive List.mem_cons_self]
        rfl
    have hrest := ih fun raw directive hmem => h raw directive (List.mem_cons_of_mem _ hmem)
    exact substitute_cons_eq_ok.2 ⟨_, _, hhere, hrest, by simp⟩

/-- A placeholder that the first pass leaves alone is found again after it, whatever was put in around it. -/
theorem mem_placeholders_of_interpolate {replacements : Replacements} {template text raw : String}
    {directive : Directive} (hmem : .directive raw directive ∈ Template.placeholders template)
    (hkeep : interpolation replacements template directive = .ok none)
    (h : interpolate replacements template = .ok text) : .directive raw directive ∈ Template.placeholders text := by
  obtain ⟨before, here, after, hhere, htext⟩ := exists_of_substitute_ok hmem h
  obtain rfl : here = raw := by
    rw [substituted, hkeep] at hhere
    exact (Except.ok.inj hhere).symm
  -- What was written in the template is written in the text.
  have hwritten := (Template.mem_placeholders_iff.1 hmem).1
  exact Template.mem_placeholders_iff.2 ⟨hwritten, before.toList, after.toList, by simp [htext]⟩

variable {replacements : Replacements} {template raw name : String}

theorem prepare_error_of_format {spec : String} {error : Format.Error}
    (hmem : .directive raw (.format name spec) ∈ Template.placeholders template)
    (hbound : (replacements.get? name).isSome) (hspec : Format.validate spec = .error error) :
    ∃ error, prepare replacements template = .error error := by
  obtain ⟨value, hvalue⟩ := Option.isSome_iff_exists.1 hbound
  have hfails : interpolation replacements template (.format name spec) = .error (.format name spec error) := by
    simp only [interpolation, hvalue, Format.renderWith_of_validate_error hspec]
    rfl
  obtain ⟨error', herror⟩ := substitute_error_of_mem hmem hfails
  refine ⟨error', ?_⟩
  unfold prepare interpolate
  rw [herror]
  rfl

private theorem pluralization_error {forms : String} (hbound : (replacements.get? name).isSome)
    (hforms : Plural.isSupported (Plural.forms forms).length = false) :
    ∃ error, pluralization replacements (.plural name forms) = .error error := by
  obtain ⟨value, hvalue⟩ := Option.isSome_iff_exists.1 hbound
  simp only [pluralization, hvalue]
  cases value.toBinary64? with
  | none => exact ⟨_, rfl⟩
  | some count =>
    refine ⟨.unsupportedFormCount name (Plural.forms forms).length, ?_⟩
    simp [selectForm, Plural.select?_eq_none_iff.2 hforms, Except.map]

theorem prepare_error_of_plural {forms : String}
    (hmem : .directive raw (.plural name forms) ∈ Template.placeholders template)
    (hbound : (replacements.get? name).isSome)
    (hforms : Plural.isSupported (Plural.forms forms).length = false) :
    ∃ error, prepare replacements template = .error error := by
  unfold prepare
  cases hinterpolate : interpolate replacements template with
  | error error => exact ⟨error, rfl⟩
  | ok text =>
    obtain ⟨error, hfails⟩ := pluralization_error hbound hforms
    exact substitute_error_of_mem (mem_placeholders_of_interpolate hmem rfl hinterpolate) hfails

/-! ### Text without marks -/

private theorem substitute_scan_iff {frame : Frame} {text : List Char} {result : String} :
    substitute replace (frame.scan text) = .ok result ↔
      ∃ more, substitute replace (frame.scan (text.dropWhile (· != frame.mark))) = .ok more ∧
        result = String.ofList (text.takeWhile (· != frame.mark)) ++ more := by
  rcases text with _ | ⟨c, rest⟩
  · simp [@eq_comm _ result]
  · by_cases hc : c = frame.mark
    · simp [hc, @eq_comm _ result]
    · have hscan : frame.scan (c :: rest) = .literal (String.ofList (c :: rest.takeWhile (· != frame.mark))) ::
          frame.scan (rest.dropWhile (· != frame.mark)) := by
        conv => lhs; unfold Frame.scan
        rw [if_neg hc]
      rw [hscan, substitute_cons_eq_ok, List.dropWhile_cons_of_pos (by simpa using hc),
        List.takeWhile_cons_of_pos (by simpa using hc)]
      simp [substituted]

/-- Text without marks stays in front of what follows it, wherever the scan cuts it. -/
theorem substitute_scan_append_iff {frame : Frame} {front text : List Char} {result : String}
    (hfront : frame.mark ∉ front) :
    substitute replace (frame.scan (front ++ text)) = .ok result ↔
      ∃ more, substitute replace (frame.scan text) = .ok more ∧ result = String.ofList front ++ more := by
  have hall : ∀ c ∈ front, (c != frame.mark) = true := by
    intro c hc
    have hne : c ≠ frame.mark := fun heq => hfront (heq ▸ hc)
    simpa using hne
  have htake : (front ++ text).takeWhile (· != frame.mark) = front ++ text.takeWhile (· != frame.mark) :=
    List.takeWhile_append_of_pos hall
  have hdrop : (front ++ text).dropWhile (· != frame.mark) = text.dropWhile (· != frame.mark) :=
    List.dropWhile_append_of_pos hall
  rw [substitute_scan_iff, htake, hdrop, String.ofList_append]
  constructor
  · rintro ⟨more, hmore, rfl⟩
    exact ⟨_, substitute_scan_iff.2 ⟨more, hmore, rfl⟩, String.append_assoc⟩
  · rintro ⟨_, hresult, rfl⟩
    obtain ⟨more, hmore, rfl⟩ := substitute_scan_iff.1 hresult
    exact ⟨more, hmore, String.append_assoc.symm⟩

end Evaluation

end Phrasebook
