import Phrasebook.Proofs.Evaluation.Assembly

/-!
# The first two passes as one

The second pass scans the text that the first one made.  If there are no braces in the literal text of the template and
in what the first pass puts in, the second pass finds the directives that the first one left alone and no others
(`substitute_placeholders_iff`).  Both passes together then put one text in the place of each segment of the template
(`passes_fuse`).
-/

namespace Phrasebook

namespace Evaluation

/-! ### Two passes over segments -/

variable {replace later : Directive → Except EvalError (Option String)} {segments : List Segment}

/-- A pass over what another one leaves alone. -/
def fused (replace later : Directive → Except EvalError (Option String)) (directive : Directive) :
    Except EvalError (Option String) := do
  match ← replace directive with
  | some here => return some here
  | none => later directive

private theorem substituted_fused_of_replaced {segment : Segment} {here : String}
    (h : Replaced replace segment here) : substituted (fused replace later) segment = .ok here := by
  obtain ⟨raw, directive, rfl, hreplace⟩ := h
  have hfused : fused replace later directive = .ok (some here) := by
    unfold fused
    rw [hreplace]
    rfl
  rw [substituted, hfused]
  rfl

private theorem substituted_fused_of_kept {raw : String} {directive : Directive} (h : replace directive = .ok none) :
    substituted (fused replace later) (.directive raw directive) = substituted later (.directive raw directive) := by
  have hfused : fused replace later directive = later directive := by
    unfold fused
    rw [h]
    rfl
  rw [substituted, substituted, hfused]

private theorem substituted_fused_directive_iff {raw here : String} {directive : Directive} :
    substituted (fused replace later) (.directive raw directive) = .ok here ↔
      replace directive = .ok (some here) ∨ replace directive = .ok none ∧
        (later directive = .ok (some here) ∨ later directive = .ok none ∧ here = raw) := by
  cases hreplace : replace directive with
  | error error => simp [substituted, fused, hreplace]
  | ok replaced =>
    cases replaced with
    | some text =>
      rw [substituted_fused_of_replaced ⟨raw, directive, rfl, hreplace⟩]
      simp
    | none =>
      rw [substituted_fused_of_kept hreplace, substituted_eq_ok_iff]
      simp [Replaced, and_comm, @eq_comm _ raw]

private theorem substituted_of_fused {segment : Segment} {here : String}
    (h : substituted (fused replace later) segment = .ok here) : ∃ text, substituted replace segment = .ok text := by
  rcases segment with text | ⟨raw, directive⟩
  · exact ⟨text, rfl⟩
  · rcases substituted_fused_directive_iff.1 h with hreplace | ⟨hreplace, -⟩
    · exact ⟨here, substituted_eq_ok_iff.2 (.inr (.inl ⟨raw, directive, rfl, hreplace⟩))⟩
    · exact ⟨raw, substituted_eq_ok_iff.2 (.inr (.inr ⟨directive, rfl, hreplace⟩))⟩

private theorem substitute_placeholders_append_iff {front more text : String} (hfront : Template.BraceFree front) :
    substitute later (Template.placeholders (front ++ more)) = .ok text ↔
      ∃ after, substitute later (Template.placeholders more) = .ok after ∧ text = front ++ after := by
  have hmark : Template.placeholder.mark ∉ front.toList := fun hmem => (hfront _ hmem).1 rfl
  unfold Template.placeholders
  rw [String.toList_append, substitute_scan_append_iff hmark, String.ofList_toList]

/-- Where no brace is put next to a directive, a pass over the result of another one does to each directive that this
one left alone what it would have done to it in the first place. -/
theorem substitute_placeholders_iff {middle text : String}
    (hliteral : ∀ literal, .literal literal ∈ segments → Template.BraceFree literal)
    (hwritten : ∀ raw directive, .directive raw directive ∈ segments →
      Template.placeholder.Writes directive raw.toList)
    (hputs : PutsNoBraces replace segments) (h : substitute replace segments = .ok middle) :
    substitute later (Template.placeholders middle) = .ok text ↔
      substitute (fused replace later) segments = .ok text := by
  induction segments generalizing middle text with
  | nil =>
    obtain rfl := Except.ok.inj h
    unfold Template.placeholders
    simp [Frame.scan, substitute]
  | cons segment rest ih =>
    obtain ⟨here, more, hhere, hrest, rfl⟩ := substitute_cons_eq_ok.1 h
    have ih (text : String) : substitute later (Template.placeholders more) = .ok text ↔
        substitute (fused replace later) rest = .ok text :=
      ih (fun literal hmem => hliteral literal (List.mem_cons_of_mem _ hmem))
        (fun raw directive hmem => hwritten raw directive (List.mem_cons_of_mem _ hmem))
        (fun segment hmem => hputs segment (List.mem_cons_of_mem _ hmem)) hrest
    rw [substitute_cons_eq_ok]
    -- A text without braces that is put in holds no beginning of a directive.
    have hput (hfree : Template.BraceFree here) (hfused : substituted (fused replace later) segment = .ok here) :
        substitute later (Template.placeholders (here ++ more)) = .ok text ↔
          ∃ here more, substituted (fused replace later) segment = .ok here ∧
            substitute (fused replace later) rest = .ok more ∧ text = here ++ more := by
      rw [substitute_placeholders_append_iff hfree]
      simp [hfused, ih]
    rcases substituted_eq_ok_iff.1 hhere with rfl | hreplaced | ⟨directive, rfl, hkept⟩
    · exact hput (hliteral here List.mem_cons_self) rfl
    · exact hput (hputs segment List.mem_cons_self here hreplaced) (substituted_fused_of_replaced hreplaced)
    · have hscan : Template.placeholders (here ++ more) = .directive here directive :: Template.placeholders more := by
        have hfirst := Frame.scan_append_of_writes Template.separated_placeholder.closing
          (hwritten here directive List.mem_cons_self) more.toList
        unfold Template.placeholders
        rw [String.toList_append, hfirst, String.ofList_toList]
      rw [hscan, substitute_cons_eq_ok, substituted_fused_of_kept hkept]
      simp only [ih]

theorem substitute_eq_ok_iff {text : String} :
    substitute replace segments = .ok text ↔
      ∃ heres, List.Forall₂ (fun segment here => substituted replace segment = .ok here) segments heres ∧
        text = String.join heres := by
  induction segments generalizing text with
  | nil =>
    constructor
    · intro h
      exact ⟨[], .nil, (Except.ok.inj h).symm⟩
    · rintro ⟨_, _ | _, rfl⟩
      rfl
  | cons segment rest ih =>
    rw [substitute_cons_eq_ok]
    constructor
    · rintro ⟨here, more, hhere, hmore, rfl⟩
      obtain ⟨heres, hheres, rfl⟩ := ih.1 hmore
      exact ⟨here :: heres, .cons hhere hheres, String.join_cons.symm⟩
    · rintro ⟨_, _ | ⟨hhere, hheres⟩, rfl⟩
      exact ⟨_, _, hhere, ih.2 ⟨_, hheres, rfl⟩, String.join_cons⟩

theorem exists_substitute_eq_ok_iff :
    (∃ text, substitute replace segments = .ok text) ↔
      ∀ segment ∈ segments, ∃ here, substituted replace segment = .ok here := by
  rw [← Except.exists_forall₂_iff]
  constructor
  · rintro ⟨text, h⟩
    obtain ⟨heres, hheres, -⟩ := substitute_eq_ok_iff.1 h
    exact ⟨heres, hheres⟩
  · rintro ⟨heres, hheres⟩
    exact ⟨_, substitute_eq_ok_iff.2 ⟨heres, hheres, rfl⟩⟩

/-! ### What becomes of a segment -/

variable {replacements : Replacements} {template : String}

/-- The start of a format directive of this name stands in the template. -/
def StartsFormat (template name : String) : Prop :=
  ("\x7b\x7b" ++ name ++ ".format(").toList <:+: template.toList

theorem hasFormatDirective_iff {name : String} :
    hasFormatDirective template name = true ↔ StartsFormat template name := by
  have hstart : ("\x7b\x7b" ++ name ++ ".format(").toList = '{' :: '{' :: (name.toList ++ Template.formatMarker) := by
    simp only [String.toList_append, List.append_assoc]
    rfl
  unfold hasFormatDirective StartsFormat
  rw [hstart, Text.occurs_iff]

instance (template name : String) : Decidable (StartsFormat template name) :=
  decidable_of_iff _ hasFormatDirective_iff

/-- The text that both passes together put in the place of a segment. -/
def Becomes (replacements : Replacements) (template : String) : Segment → String → Prop
  | .literal text, here => here = text
  | .directive raw (.format name spec), here =>
    match replacements.get? name with
    | some value => Format.renderWith spec value = .ok here
    | none => here = raw
  | .directive raw (.plain name), here =>
    match replacements.get? name with
    | some value => if StartsFormat template name then here = raw else here = value.display
    | none => here = raw
  | .directive raw (.plural name forms), here =>
    match replacements.get? name with
    | some value => ∃ count, value.toBinary64? = some count ∧ Plural.select? count (Plural.forms forms) = some here
    | none => here = raw
  | .directive raw (.reference _), here => here = raw

theorem interpolation_plain {name : String} :
    interpolation replacements template (.plain name) =
      if StartsFormat template name then .ok none else .ok ((replacements.get? name).map Value.display) := by
  by_cases hstarts : StartsFormat template name
  · simp [interpolation, hasFormatDirective_iff.2 hstarts, hstarts]
  · have hfalse : hasFormatDirective template name = false := by
      rw [Bool.eq_false_iff]
      exact mt hasFormatDirective_iff.1 hstarts
    simp [interpolation, hfalse, hstarts]

private theorem selectForm_eq_ok_iff {name form : String} {count : Binary64} {forms : List String} :
    selectForm name count forms = .ok form ↔ Plural.select? count forms = some form := by
  unfold selectForm
  cases Plural.select? count forms <;> simp

theorem substituted_fused_iff {segment : Segment} {here : String} :
    substituted (fused (interpolation replacements template) (pluralization replacements)) segment = .ok here ↔
      Becomes replacements template segment here := by
  rcases segment with text | ⟨raw, directive⟩
  · simp [substituted, Becomes, eq_comm]
  rw [substituted_fused_directive_iff]
  cases directive with
  | plain name =>
    rw [interpolation_plain]
    cases hvalue : replacements.get? name with
    | none => simp [Becomes, hvalue, pluralization]
    | some value =>
      by_cases hstarts : StartsFormat template name
      · simp [Becomes, hvalue, hstarts, pluralization]
      · simp [Becomes, hvalue, hstarts, eq_comm]
  | format name spec =>
    cases hvalue : replacements.get? name with
    | none => simp [Becomes, hvalue, interpolation, pluralization]
    | some value => simp [Becomes, hvalue, interpolation]
  | plural name forms =>
    cases hvalue : replacements.get? name with
    | none => simp [Becomes, hvalue, interpolation, pluralization]
    | some value =>
      cases hcount : value.toBinary64? with
      | none => simp [Becomes, hvalue, hcount, interpolation, pluralization]
      | some count => simp [Becomes, hvalue, hcount, interpolation, pluralization, selectForm_eq_ok_iff]
  | reference key => simp [Becomes, interpolation, pluralization]

/-! ### Both passes -/

/-- The text that a directive is replaced by. -/
private def replacement? (replace : Directive → Except EvalError (Option String)) : Segment → Option String
  | .literal _ => none
  | .directive _ directive => (replace directive).toOption.join

private theorem replaced_iff {segment : Segment} {here : String} :
    Replaced replace segment here ↔ replacement? replace segment = some here := by
  rcases segment with text | ⟨raw, directive⟩
  · simp [Replaced, replacement?]
  · cases hreplace : replace directive <;> simp [Replaced, replacement?, hreplace, Except.toOption]

instance : Decidable (PutsNoBraces replace segments) :=
  decidable_of_iff (∀ segment ∈ segments, ∀ here ∈ replacement? replace segment, Template.BraceFree here) <| by
    simp [PutsNoBraces, replaced_iff]

private theorem prepare_eq_ok_iff_fused {text : String}
    (hliterals : ∀ literal, .literal literal ∈ Template.placeholders template → Template.BraceFree literal)
    (hputs : (∃ text, interpolate replacements template = .ok text) →
      PutsNoBraces (interpolation replacements template) (Template.placeholders template)) :
    prepare replacements template = .ok text ↔
      substitute (fused (interpolation replacements template) (pluralization replacements))
        (Template.placeholders template) = .ok text := by
  have hwritten : ∀ raw directive, .directive raw directive ∈ Template.placeholders template →
      Template.placeholder.Writes directive raw.toList :=
    fun raw directive hmem => (Template.mem_placeholders_iff.1 hmem).1
  unfold prepare
  cases hinterpolate : interpolate replacements template with
  | ok middle => exact substitute_placeholders_iff hliterals hwritten (hputs ⟨middle, hinterpolate⟩) hinterpolate
  | error error =>
    -- Where the first pass fails, so do both as one.
    constructor
    · nofun
    · intro h
      obtain ⟨middle, hmiddle⟩ : ∃ middle, interpolate replacements template = .ok middle := by
        refine exists_substitute_eq_ok_iff.2 fun segment hmem => ?_
        obtain ⟨here, hhere⟩ := exists_substitute_eq_ok_iff.1 ⟨text, h⟩ segment hmem
        exact substituted_of_fused hhere
      rw [hinterpolate] at hmiddle
      cases hmiddle

/-- If there are no braces in the literal text of a template, and the first pass puts in none, both passes succeed just
if there is a text for each segment, and make the text of the segments one after the other. -/
theorem passes_fuse {replacements : Replacements} {template : String}
    (hliterals : ∀ literal, .literal literal ∈ Template.placeholders template → Template.BraceFree literal)
    (hputs : (∃ text, interpolate replacements template = .ok text) →
      PutsNoBraces (interpolation replacements template) (Template.placeholders template)) :
    ((∃ text, (interpolate replacements template).bind (pluralize replacements) = .ok text) ↔
        ∀ segment ∈ Template.placeholders template, ∃ here, Becomes replacements template segment here) ∧
      ∀ text, (interpolate replacements template).bind (pluralize replacements) = .ok text ↔
        ∃ heres, List.Forall₂ (Becomes replacements template) (Template.placeholders template) heres ∧
          text = String.join heres := by
  have hprepare (text : String) : (interpolate replacements template).bind (pluralize replacements) = .ok text ↔
      substitute (fused (interpolation replacements template) (pluralization replacements))
        (Template.placeholders template) = .ok text :=
    prepare_eq_ok_iff_fused hliterals hputs
  constructor
  · simp only [hprepare, exists_substitute_eq_ok_iff, substituted_fused_iff]
  · intro text
    rw [hprepare, substitute_eq_ok_iff]
    simp only [substituted_fused_iff]

/-- A plain directive next to a format directive of the same name stays as it is written. -/
theorem passes_fuse_suppressed :
    let template := "{{n.format(%03d)}} {{n}} {{m}} {{m.plural(one,many)}} {{x}}"
    let replacements : Replacements := .ofList [("n", .int 7), ("m", .int 1)]
    (∀ literal, .literal literal ∈ Template.placeholders template → Template.BraceFree literal) ∧
      PutsNoBraces (interpolation replacements template) (Template.placeholders template) ∧
      ∃ heres, List.Forall₂ (Becomes replacements template) (Template.placeholders template) heres ∧
        "007 {{n}} 1 one {{x}}" = String.join heres := by
  intro template replacements
  have hliterals (literal : String) (hmem : .literal literal ∈ Template.placeholders template) :
      Template.BraceFree literal := by
    have hsegments : Template.placeholders template =
        [.directive "{{n.format(%03d)}}" (.format "n" "%03d"), .literal " ", .directive "{{n}}" (.plain "n"),
          .literal " ", .directive "{{m}}" (.plain "m"), .literal " ",
          .directive "{{m.plural(one,many)}}" (.plural "m" "one,many"), .literal " ",
          .directive "{{x}}" (.plain "x")] := by decide +kernel
    obtain rfl : literal = " " := by simpa [hsegments] using hmem
    decide
  have hputs : PutsNoBraces (interpolation replacements template) (Template.placeholders template) := by decide +kernel
  have htext : (interpolate replacements template).bind (pluralize replacements) = .ok "007 {{n}} 1 one {{x}}" := by
    decide +kernel
  exact ⟨hliterals, hputs, ((passes_fuse hliterals fun _ => hputs).2 _).1 htext⟩

end Evaluation

end Phrasebook
