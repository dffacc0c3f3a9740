import Phrasebook.Proofs.Evaluation.Substitution
import Phrasebook.Proofs.Format.Characters

/-!
# Placeholders that a pass makes

A pass can make a placeholder that is not in the template.  If nothing that is put in has braces, the first and the last
brace of the placeholder are literal text of the template, and between them a directive was replaced
(`mem_placeholders_or_enclosed`).

The first pass puts in values.  A plain directive has the braces of the natural text, a format directive has no others
but those of a character whose code point is that of a brace (`mem_placeholders_or_assembles`).
-/

namespace Phrasebook

namespace Evaluation

variable {replace : Directive → Except EvalError (Option String)} {segments : List Segment} {template text : String}

/-! ### Where a character comes from -/

/-- A character of two texts is in the first one or in the second one. -/
private theorem append_cons_eq_append {before after first second : List Char} {c : Char}
    (h : before ++ c :: after = first ++ second) :
    (∃ v, first = before ++ c :: v ∧ after = v ++ second) ∨ ∃ w, before = first ++ w ∧ second = w ++ c :: after := by
  rcases List.append_eq_append_iff.1 h with ⟨inner, hfirst, hinner⟩ | ⟨w, hbefore, hsecond⟩
  · cases inner with
    | nil => exact .inr ⟨[], by simpa using hfirst.symm, by simpa using hinner.symm⟩
    | cons d v =>
      obtain ⟨rfl, hafter⟩ := List.cons.inj hinner
      exact .inl ⟨v, hfirst, hafter⟩
  · exact .inr ⟨w, hbefore, hsecond⟩

/-- Each character of the result is in the text of a segment. -/
theorem exists_segment_of_char {before after : List Char} {c : Char} (h : substitute replace segments = .ok text)
    (htext : text.toList = before ++ c :: after) :
    ∃ pre segment post left here right u v, segments = pre ++ segment :: post ∧
      substitute replace pre = .ok left ∧ substituted replace segment = .ok here ∧
      substitute replace post = .ok right ∧ here.toList = u ++ c :: v ∧
      before = left.toList ++ u ∧ after = v ++ right.toList := by
  induction segments generalizing text before with
  | nil =>
    obtain rfl := Except.ok.inj h
    simp at htext
  | cons segment rest ih =>
    obtain ⟨here, more, hhere, hrest, rfl⟩ := substitute_cons_eq_ok.1 h
    rw [String.toList_append] at htext
    rcases append_cons_eq_append htext.symm with ⟨v, hhere', rfl⟩ | ⟨inner, rfl, hmore⟩
    · exact ⟨[], segment, rest, "", here, more, before, v, rfl, rfl, hhere, hrest, hhere', by simp, rfl⟩
    · obtain ⟨pre, other, post, left, here', right, u, v, rfl, hleft, hhere', hright, hc, rfl, hafter⟩ := ih hrest hmore
      exact ⟨segment :: pre, other, post, here ++ left, here', right, u, v, rfl,
        substitute_cons_eq_ok.2 ⟨here, left, hhere, hleft, rfl⟩, hhere', hright, hc, by simp, hafter⟩

/-! ### Replaced directives -/

/-- A directive is replaced by this text. -/
def Replaced (replace : Directive → Except EvalError (Option String)) (segment : Segment) (here : String) : Prop :=
  ∃ raw directive, segment = .directive raw directive ∧ replace directive = .ok (some here)

theorem substituted_eq_ok_iff {segment : Segment} {here : String} :
    substituted replace segment = .ok here ↔ segment = .literal here ∨ Replaced replace segment here ∨
      ∃ directive, segment = .directive here directive ∧ replace directive = .ok none := by
  constructor
  · intro h
    cases segment with
    | literal text => exact .inl (congrArg Segment.literal (Except.ok.inj h))
    | directive raw directive =>
      obtain ⟨replaced, hreplace, rfl⟩ := Except.map_eq_ok_iff.1 h
      cases replaced with
      | none => exact .inr (.inr ⟨directive, rfl, hreplace⟩)
      | some here => exact .inr (.inl ⟨raw, directive, rfl, hreplace⟩)
  · rintro (rfl | ⟨raw, directive, rfl, hreplace⟩ | ⟨directive, rfl, hreplace⟩)
    · rfl
    · rw [substituted, hreplace]
      rfl
    · rw [substituted, hreplace]
      rfl

theorem replaced_or_source {segment : Segment} {here : String} (h : substituted replace segment = .ok here) :
    Replaced replace segment here ∨ here = segment.source := by
  rcases substituted_eq_ok_iff.1 h with rfl | hreplaced | ⟨directive, rfl, -⟩
  · exact .inr rfl
  · exact .inl hreplaced
  · exact .inr rfl

/-- Where nothing is replaced the text stays as it is. -/
theorem toList_of_not_replaced (h : substitute replace segments = .ok text)
    (hkept : ∀ segment ∈ segments, ∀ here, ¬ Replaced replace segment here) :
    text.toList = Frame.sources segments := by
  have hnone : ∀ raw directive, .directive raw directive ∈ segments → replace directive = .ok none := by
    intro raw directive hmem
    obtain ⟨_, _, _, hhere, -⟩ := exists_of_substitute_ok hmem h
    obtain ⟨replaced, hreplace, -⟩ := Except.map_eq_ok_iff.1 hhere
    cases replaced with
    | none => exact hreplace
    | some here => exact absurd ⟨raw, directive, rfl, hreplace⟩ (hkept _ hmem here)
  rw [substitute_of_none hnone] at h
  rw [← Except.ok.inj h, String.toList_ofList]

/-- No directive is replaced by a text with braces. -/
def PutsNoBraces (replace : Directive → Except EvalError (Option String)) (segments : List Segment) : Prop :=
  ∀ segment ∈ segments, ∀ here, Replaced replace segment here → Template.BraceFree here

/-- A directive that is replaced stands between literal text with an opening brace and literal text with a closing
brace. -/
def Enclosed (replace : Directive → Except EvalError (Option String)) (segments : List Segment) : Prop :=
  ∃ pre segment post here, segments = pre ++ segment :: post ∧ Replaced replace segment here ∧
    (∃ text, .literal text ∈ pre ∧ '{' ∈ text.toList) ∧ ∃ text, .literal text ∈ post ∧ '}' ∈ text.toList

/-- A brace of a placeholder comes from literal text, or the placeholder is in the template.  Here `first` is the text
of the segments before those that are looked through. -/
private theorem mem_or_exists_literal {front rest : List Segment} {text raw : String} {directive : Directive}
    {start tail first before after : List Char} {c : Char}
    (hfree : PutsNoBraces replace (Template.placeholders template))
    (hsegments : Template.placeholders template = front ++ rest) (hrest : substitute replace rest = .ok text)
    (hwritten : Template.placeholder.Writes directive raw.toList)
    (hplace : start ++ raw.toList ++ tail = first ++ text.toList) (hc : Format.IsBrace c)
    (htext : text.toList = before ++ c :: after) (hstart : start.length ≤ (first ++ before).length)
    (hend : (first ++ before).length < (start ++ raw.toList).length) :
    .directive raw directive ∈ Template.placeholders template ∨
      ∃ pre here post left right u v, rest = pre ++ .literal here :: post ∧ substitute replace pre = .ok left ∧
        substitute replace post = .ok right ∧ here.toList = u ++ c :: v ∧ before = left.toList ++ u ∧
        after = v ++ right.toList := by
  obtain ⟨pre, segment, post, left, here, right, u, v, rfl, hleft, hhere, hright, hsplit, rfl, rfl⟩ :=
    exists_segment_of_char hrest htext
  have hmem : segment ∈ Template.placeholders template := by simp [hsegments]
  rcases replaced_or_source hhere with hreplaced | rfl
  · have hbraces := hfree segment hmem here hreplaced
    rw [Format.braceFree_iff] at hbraces
    exact absurd hc (hbraces c (by simp [hsplit]))
  · cases segment with
    | literal here => exact .inr ⟨pre, here, post, left, right, u, v, rfl, hleft, hright, hsplit, rfl, rfl⟩
    | directive raw' directive' =>
      -- The brace is in two placeholders of the result, which are one.
      rw [Segment.source] at hsplit
      have hother := (Template.mem_placeholders_iff.1 hmem).1
      have hplace' : start ++ raw.toList ++ tail = first ++ left.toList ++ raw'.toList ++ right.toList := by
        rw [hplace, htext, hsplit]
        simp
      have hlength : raw'.toList.length = u.length + (v.length + 1) := by simp [hsplit]
      simp only [List.length_append] at hstart hend
      obtain ⟨hraw, rfl⟩ := Frame.eq_of_overlap Template.separated_placeholder hwritten hother hplace'
        (by rw [List.length_append]; omega) (by rw [List.length_append]; omega)
      obtain rfl := String.toList_inj.1 hraw
      exact .inl hmem

/-- What stands between two literals is in the template, or a directive between them is replaced. -/
private theorem infix_or_enclosed {pre mid post : List Segment} {here middle here' : String} {u v u' v' : List Char}
    (hmiddle : substitute replace mid = .ok middle) (hopening : here.toList = u ++ '{' :: v)
    (hclosing : here'.toList = u' ++ '}' :: v') :
    '{' :: (v ++ (middle.toList ++ u') ++ ['}']) <:+:
        Frame.sources (pre ++ .literal here :: (mid ++ .literal here' :: post)) ∨
      Enclosed replace (pre ++ .literal here :: (mid ++ .literal here' :: post)) := by
  by_cases hreplaced : ∃ segment ∈ mid, ∃ text, Replaced replace segment text
  · obtain ⟨segment, hmem, text, hreplaced⟩ := hreplaced
    obtain ⟨before, after, rfl⟩ := List.append_of_mem hmem
    exact .inr ⟨pre ++ .literal here :: before, segment, after ++ .literal here' :: post, text, by simp, hreplaced,
      ⟨here, by simp, by simp [hopening]⟩, here', by simp, by simp [hclosing]⟩
  · have hsource := toList_of_not_replaced hmiddle fun segment hmem text h => hreplaced ⟨segment, hmem, text, h⟩
    refine .inl ⟨Frame.sources pre ++ u, v' ++ Frame.sources post, ?_⟩
    rw [hsource]
    simp [Frame.sources, Segment.source, hopening, hclosing]

/-- If nothing that is put in has braces, a placeholder of the result is in the template, or the template has literal
braces around a directive that is replaced. -/
theorem mem_placeholders_or_enclosed {raw : String} {directive : Directive}
    (hfree : PutsNoBraces replace (Template.placeholders template))
    (h : substitute replace (Template.placeholders template) = .ok text)
    (hmem : .directive raw directive ∈ Template.placeholders text) :
    .directive raw directive ∈ Template.placeholders template ∨ Enclosed replace (Template.placeholders template) := by
  obtain ⟨hwritten, start, tail, htext⟩ := Template.mem_placeholders_iff.1 hmem
  obtain ⟨inner, hraw⟩ : ∃ inner, raw.toList = '{' :: (inner ++ ['}']) := by
    obtain ⟨body, rfl, -⟩ := Template.writes_placeholder_iff.1 hwritten
    exact ⟨'{' :: (body.toList ++ ['}']), by simp [Template.braced]⟩
  have hinTemplate : raw.toList <:+: Frame.sources (Template.placeholders template) →
      .directive raw directive ∈ Template.placeholders template := by
    intro hinfix
    rw [Template.placeholders, Frame.sources_scan] at hinfix
    exact Template.mem_placeholders_iff.2 ⟨hwritten, hinfix⟩
  -- The first brace comes from a literal.
  have hfirst : text.toList = start ++ '{' :: (inner ++ '}' :: tail) := by simp [← htext, hraw]
  have hplace : start ++ raw.toList ++ tail = [] ++ text.toList := htext
  rcases mem_or_exists_literal hfree (List.nil_append _).symm h hwritten hplace (.inl rfl) hfirst
    (by simp) (by simp [hraw]) with
    hmem | ⟨pre, here, rest, left, right, u, v, hsegments, -, hrest, hopening, rfl, hafter⟩
  · exact .inl hmem
  rcases append_cons_eq_append hafter with ⟨v, rfl, -⟩ | ⟨w, rfl, hlast⟩
  · -- So does the whole placeholder.
    refine .inl (hinTemplate ⟨Frame.sources pre ++ u, v ++ Frame.sources rest, ?_⟩)
    rw [hsegments, hraw]
    simp [Frame.sources, Segment.source, hopening]
  -- The last brace comes from a later literal.
  have hsegments' : Template.placeholders template = (pre ++ [.literal here]) ++ rest := by simp [hsegments]
  have hplace' : left.toList ++ u ++ raw.toList ++ tail = (left.toList ++ here.toList) ++ right.toList := by
    rw [hraw, hopening, hlast]
    simp
  rcases mem_or_exists_literal hfree hsegments' hrest hwritten hplace' (.inr rfl) hlast
    (by simp [hopening]) (by simp [hopening, hraw]) with
    hmem | ⟨mid, here', post, middle, _, u', v', rfl, hmiddle, -, hclosing, rfl, -⟩
  · exact .inl hmem
  rw [hsegments] at hinTemplate ⊢
  rw [hraw] at hinTemplate
  exact (infix_or_enclosed hmiddle hopening hclosing).imp_left hinTemplate

/-! ### Values -/

/-- No value has braces in its natural text. -/
def BraceFreeValues (replacements : Replacements) : Prop :=
  ∀ name value, replacements.get? name = some value → Template.BraceFree value.display

theorem braceFreeValues_of_bindings {replacements : Replacements}
    (h : ∀ binding ∈ replacements.bindings, Template.BraceFree binding.2.display) : BraceFreeValues replacements := by
  intro name value hvalue
  obtain ⟨before, after, hbindings, -⟩ := List.lookup_eq_some_iff.1 hvalue
  exact h (name, value) (by simp [hbindings])

/-- The first pass can make new placeholders out of the template: literal braces enclose a directive that is replaced,
or a value is written as the character of its code point and this is a brace. -/
def Assembles (replacements : Replacements) (template : String) : Prop :=
  Enclosed (interpolation replacements template) (Template.placeholders template) ∨
    ∃ raw name spec value, .directive raw (.format name spec) ∈ Template.placeholders template ∧
      replacements.get? name = some value ∧ Format.WritesBrace spec value

variable {replacements : Replacements}

/-- A directive is replaced by a value in its natural text or as its spec says. -/
private theorem eq_of_interpolation_some {directive : Directive} {here : String}
    (h : interpolation replacements template directive = .ok (some here)) :
    ∃ name value, replacements.get? name = some value ∧
      (directive = .plain name ∧ here = value.display ∨
        ∃ spec, directive = .format name spec ∧ Format.renderWith spec value = .ok here) := by
  cases directive with
  | plain name =>
    unfold interpolation at h
    dsimp only at h
    split at h
    · cases h
    · obtain ⟨value, hvalue, rfl⟩ := Option.map_eq_some_iff.1 (Except.ok.inj h)
      exact ⟨name, value, hvalue, .inl ⟨rfl, rfl⟩⟩
  | format name spec =>
    unfold interpolation at h
    cases hvalue : replacements.get? name with
    | none => simp [hvalue] at h
    | some value =>
      simp only [hvalue, Except.map_eq_ok_iff, Except.mapError_eq_ok_iff, Option.some.injEq, exists_eq_right] at h
      exact ⟨name, value, hvalue, .inr ⟨spec, rfl, h⟩⟩
  | plural name forms => cases h
  | reference key => cases h

/-- With values without braces, a placeholder that is found after the first pass is in the template or made from it. -/
theorem mem_placeholders_or_assembles {raw : String} {directive : Directive} (hvalues : BraceFreeValues replacements)
    (h : interpolate replacements template = .ok text)
    (hmem : .directive raw directive ∈ Template.placeholders text) :
    .directive raw directive ∈ Template.placeholders template ∨ Assembles replacements template := by
  by_cases hwrites : ∃ raw name spec value, .directive raw (.format name spec) ∈ Template.placeholders template ∧
      replacements.get? name = some value ∧ Format.WritesBrace spec value
  · exact .inr (.inr hwrites)
  · have hfree : PutsNoBraces (interpolation replacements template) (Template.placeholders template) := by
      rintro _ hsegment here ⟨raw, directive, rfl, hreplaced⟩
      obtain ⟨name, value, hvalue, ⟨-, rfl⟩ | ⟨spec, rfl, hrender⟩⟩ := eq_of_interpolation_some hreplaced
      · exact hvalues name value hvalue
      · have hspec := Template.braceFree_of_format_mem hsegment
        have hcode : ¬ Format.WritesBrace spec value := fun hcode =>
          hwrites ⟨raw, name, spec, value, hsegment, hvalue, hcode⟩
        exact Format.braceFree_of_renderWith hspec (hvalues name value hvalue) hcode hrender
    exact (mem_placeholders_or_enclosed hfree h hmem).imp_right .inl

end Evaluation

end Phrasebook
