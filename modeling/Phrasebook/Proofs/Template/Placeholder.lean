import Phrasebook.Proofs.Template.Frame
import Phrasebook.Proofs.Text.Search
import Phrasebook.Template.Placeholder

/-!
# Placeholders in a text

No placeholder begins inside another one (`separated_placeholder`), so a placeholder is found wherever it is written.

Which directive it is depends on where the markers are in its body.  Format and plain directives are read back as they
were written; a plural directive is so if the format marker is not in its forms, and else is taken for a format
directive (`placeholder_read_back`).
-/

namespace Phrasebook.Template

/-! ### Between the braces -/

/-- Behind the opening of a placeholder there is no opening brace. -/
private theorem not_prefix_of_body {body before inner : List Char} (after : List Char)
    (hbody : ∀ c ∈ body, placeholder.inBody c = true) (hinner : inner ≠ [])
    (h : body ++ ['}', '}'] = before ++ inner) : ¬ ['{'] <+: inner ++ after := by
  obtain ⟨c, inner, rfl⟩ := List.exists_cons_of_ne_nil hinner
  have hc : c ∈ body ++ ['}', '}'] := h ▸ by simp
  have hne : c ≠ '{' := by
    rintro rfl
    rcases List.mem_append.1 hc with hc | hc
    · exact absurd (hbody '{' hc) (by decide)
    · exact absurd hc (by decide)
  simp [hne.symm]

/-- No placeholder begins inside another one. -/
theorem separated_placeholder : placeholder.Separated := by
  constructor
  · exact ⟨'}', ['}'], rfl, by decide⟩
  · intro body hbody before inner after hbefore hinner h hstart
    rcases before with _ | ⟨a, _ | ⟨b, before⟩⟩
    · exact absurd rfl hbefore
    · obtain rfl : inner = '{' :: (body ++ ['}', '}']) := (List.cons.inj h).2.symm
      have hbrace : ¬ ['{'] <+: body ++ ['}', '}'] ++ after :=
        not_prefix_of_body after hbody (by simp) (List.nil_append _).symm
      exact hbrace (List.cons_prefix_cons.1 hstart).2
    · have hbrace : ¬ ['{'] <+: inner ++ after :=
        not_prefix_of_body after hbody hinner (List.cons.inj (List.cons.inj h).2).2
      exact hbrace (List.IsPrefix.trans (List.prefix_append ['{'] ['{']) hstart)

/-- A body between double braces. -/
def braced (body : String) : String :=
  "\x7b\x7b" ++ body ++ "\x7d\x7d"

/-- There is no brace in the text. -/
def BraceFree (text : String) : Prop :=
  ∀ c ∈ text.toList, c ≠ '{' ∧ c ≠ '}'

instance (text : String) : Decidable (BraceFree text) :=
  List.decidableBAll (fun c => c ≠ '{' ∧ c ≠ '}') text.toList

theorem writes_placeholder_iff {directive : Directive} {raw : String} :
    placeholder.Writes directive raw.toList ↔
      ∃ body, raw = braced body ∧ BraceFree body ∧ classifyPlaceholder? body.toList = some directive := by
  constructor
  · generalize hraw : raw.toList = written
    rintro ⟨body, hbody, hclassify⟩
    refine ⟨String.ofList body, String.toList_inj.1 ?_, ?_, ?_⟩
    · rw [hraw]
      simp [braced, placeholder]
    · intro c hc
      simpa [placeholder] using hbody c (by simpa using hc)
    · rw [String.toList_ofList]
      exact hclassify
  · rintro ⟨body, rfl, hbody, hclassify⟩
    have hwritten : (braced body).toList = '{' :: (['{'] ++ body.toList ++ ['}', '}']) := by simp [braced]
    rw [hwritten]
    refine .intro body.toList (fun c hc => ?_) hclassify
    simpa [placeholder] using hbody c hc

/-- A placeholder is found where a body that makes one stands between double braces. -/
theorem directiveAt_placeholders_iff {text before raw : String} {directive : Directive} :
    Frame.DirectiveAt (placeholders text) before raw directive ↔
      (∃ body, raw = braced body ∧ BraceFree body ∧ classifyPlaceholder? body.toList = some directive) ∧
        ∃ after, text = before ++ raw ++ after := by
  unfold placeholders
  rw [Frame.directiveAt_scan_iff separated_placeholder, writes_placeholder_iff]

/-- The placeholders of a text are those that are written anywhere in it. -/
theorem mem_placeholders_iff {text raw : String} {directive : Directive} :
    .directive raw directive ∈ placeholders text ↔
      placeholder.Writes directive raw.toList ∧ raw.toList <:+: text.toList := by
  unfold placeholders
  simp only [Frame.mem_iff_exists_directiveAt, Frame.directiveAt_scan_iff separated_placeholder]
  constructor
  · rintro ⟨before, hwritten, after, rfl⟩
    exact ⟨hwritten, before.toList, after.toList, by simp⟩
  · rintro ⟨hwritten, before, after, htext⟩
    exact ⟨String.ofList before, hwritten, String.ofList after, String.toList_inj.1 (by simp [← htext])⟩

/-- No placeholder begins in front of the first opening brace or ends behind the last closing one. -/
theorem mem_placeholders_append_iff {front text back raw : String} {directive : Directive}
    (hfront : '{' ∉ front.toList) (hback : '}' ∉ back.toList) :
    .directive raw directive ∈ placeholders (front ++ text ++ back) ↔ .directive raw directive ∈ placeholders text := by
  rw [mem_placeholders_iff, mem_placeholders_iff, writes_placeholder_iff]
  refine and_congr_right ?_
  rintro ⟨body, rfl, -⟩
  have hbegin : (braced body).toList = '{' :: ('{' :: body.toList ++ ['}', '}']) := by simp [braced]
  have hend : (braced body).toList = ('{' :: '{' :: body.toList ++ ['}']) ++ ['}'] := by simp [braced]
  rw [String.toList_append, String.toList_append, hend, Text.append_singleton_infix_append_iff hback, ← hend, hbegin,
    Text.cons_infix_append_iff hfront]

theorem directiveAt_braced_iff {body : String} (hbody : BraceFree body) (before after : String)
    {directive : Directive} :
    Frame.DirectiveAt (placeholders (before ++ braced body ++ after)) before (braced body) directive ↔
      classifyPlaceholder? body.toList = some directive := by
  rw [directiveAt_placeholders_iff]
  constructor
  · rintro ⟨⟨other, heq, -, hclassify⟩, -⟩
    obtain rfl : body = other := by simpa [braced] using heq
    exact hclassify
  · intro hclassify
    exact ⟨⟨body, rfl, hbody, hclassify⟩, after, rfl⟩

/-! ### The directive of a body -/

private theorem formatMarker_eq : formatMarker = ['.', 'f', 'o', 'r', 'm', 'a', 't', '('] := by decide

private theorem pluralMarker_eq : pluralMarker = ['.', 'p', 'l', 'u', 'r', 'a', 'l', '('] := by decide

theorem headed_formatMarker : Text.Headed '.' formatMarker :=
  ⟨_, formatMarker_eq, by decide⟩

theorem headed_pluralMarker : Text.Headed '.' pluralMarker :=
  ⟨_, pluralMarker_eq, by decide⟩

variable {name argument : List Char}

/-- A parenthesis at the end is no part of a format marker. -/
theorem formatMarker_infix_append_paren_iff : formatMarker <:+: argument ++ [')'] ↔ formatMarker <:+: argument := by
  have hsuffix : ¬ formatMarker <:+ argument ++ [')'] := by
    intro h
    have hlast := h.getLast (by simp [formatMarker_eq])
    simp [formatMarker_eq] at hlast
  rw [List.infix_concat_iff]
  simp [hsuffix]

/-- The plural marker does not make a format marker with what stands around it. -/
theorem formatMarker_infix_append_pluralMarker_iff {tail : List Char} :
    formatMarker <:+: name ++ (pluralMarker ++ tail) ↔ formatMarker <:+: name ∨ formatMarker <:+: tail := by
  let word := ['p', 'l', 'u', 'r', 'a', 'l', '(']
  -- A format marker could only begin at the point of the plural marker, and what follows this point is another word.
  have hmarker : pluralMarker ++ tail = '.' :: (word ++ tail) := by rw [pluralMarker_eq]; rfl
  have hstart : ¬ formatMarker <+: '.' :: (word ++ tail) := by simp [formatMarker_eq, word]
  rw [hmarker, headed_formatMarker.infix_append_cons_iff, List.infix_cons_iff,
    headed_formatMarker.infix_append_iff_of_notMem (by decide : '.' ∉ word)]
  simp [hstart]

private theorem argument?_append (h : ')' ∉ argument) : argument? (argument ++ [')']) = some argument := by
  have hargument : ∀ c ∈ argument, (c != ')') = true := by
    intro c hc
    have hne : c ≠ ')' := fun heq => h (heq ▸ hc)
    simpa using hne
  unfold argument?
  rw [List.dropWhile_append_of_pos hargument, List.takeWhile_append_of_pos hargument]
  simp

/-- A call is read back if the body is cut at its marker. -/
private theorem call?_append (hname : name ≠ []) (h : ')' ∉ argument) (directive : String → String → Directive) :
    call? name (argument ++ [')']) directive = some (directive (String.ofList name) (String.ofList argument)) := by
  unfold call?
  rw [if_neg hname, argument?_append h]
  rfl

theorem classifyPlaceholder?_format (hname : name ≠ []) (hformat : ¬ formatMarker <:+: name)
    (hargument : ')' ∉ argument) :
    classifyPlaceholder? (name ++ (formatMarker ++ (argument ++ [')']))) =
      some (.format (String.ofList name) (String.ofList argument)) := by
  have hbody : name ++ (formatMarker ++ (argument ++ [')'])) ≠ [] := by simp
  unfold classifyPlaceholder?
  rw [if_neg hbody, headed_formatMarker.splitAt?_append hformat]
  exact call?_append hname hargument .format

theorem classifyPlaceholder?_plural (hname : name ≠ []) (hformat : ¬ formatMarker <:+: name)
    (hplural : ¬ pluralMarker <:+: name) (hargument : ')' ∉ argument) (hforms : ¬ formatMarker <:+: argument) :
    classifyPlaceholder? (name ++ (pluralMarker ++ (argument ++ [')']))) =
      some (.plural (String.ofList name) (String.ofList argument)) := by
  have hbody : name ++ (pluralMarker ++ (argument ++ [')'])) ≠ [] := by simp
  have hnone : Text.splitAt? formatMarker (name ++ (pluralMarker ++ (argument ++ [')']))) = none := by
    rw [Text.splitAt?_eq_none_iff, formatMarker_infix_append_pluralMarker_iff, formatMarker_infix_append_paren_iff]
    exact not_or.2 ⟨hformat, hforms⟩
  unfold classifyPlaceholder?
  rw [if_neg hbody, hnone, headed_pluralMarker.splitAt?_append hplural]
  exact call?_append hname hargument .plural

theorem classifyPlaceholder?_plain (hname : name ≠ []) (hformat : ¬ formatMarker <:+: name)
    (hplural : ¬ pluralMarker <:+: name) : classifyPlaceholder? name = some (.plain (String.ofList name)) := by
  unfold classifyPlaceholder?
  rw [if_neg hname, Text.splitAt?_eq_none_iff.2 hformat, Text.splitAt?_eq_none_iff.2 hplural]

/-- The argument of a call is cut out of its text. -/
private theorem exists_of_call? {text : List Char} {directive : String → String → Directive} {found : Directive}
    (h : call? name text directive = some found) :
    ∃ argument, argument ⊆ text ∧ found = directive (String.ofList name) (String.ofList argument) := by
  unfold call? argument? at h
  split at h
  · cases h
  · split at h
    · exact ⟨_, (List.takeWhile_prefix _).subset, (Option.some.inj h).symm⟩
    · cases h

/-- The spec of a format directive is cut out of its body. -/
theorem subset_of_classifyPlaceholder?_format {body : List Char} {name spec : String}
    (h : classifyPlaceholder? body = some (.format name spec)) : spec.toList ⊆ body := by
  unfold classifyPlaceholder? at h
  split at h
  · cases h
  · split at h
    · next before after hsplit =>
      obtain ⟨rfl, -⟩ := Text.of_splitAt? (by simp [formatMarker_eq]) hsplit
      obtain ⟨argument, hargument, heq⟩ := exists_of_call? h
      obtain ⟨-, rfl⟩ := Directive.format.inj heq
      intro c hc
      have hmem := hargument (by simpa using hc)
      simp [hmem]
    · split at h
      · obtain ⟨_, -, heq⟩ := exists_of_call? h
        cases heq
      · cases h

/-- There is no brace in the spec of a format directive. -/
theorem braceFree_of_format_mem {text raw name spec : String}
    (h : .directive raw (.format name spec) ∈ placeholders text) : BraceFree spec := by
  obtain ⟨body, -, hbody, hclassify⟩ := writes_placeholder_iff.1 (mem_placeholders_iff.1 h).1
  exact fun c hc => hbody c (subset_of_classifyPlaceholder?_format hclassify hc)

/-- Without parentheses there are plain placeholders only. -/
theorem eq_plain_of_mem_placeholders {text raw : String} {directive : Directive} (hparen : '(' ∉ text.toList)
    (h : .directive raw directive ∈ placeholders text) : ∃ name, directive = .plain name := by
  obtain ⟨hwritten, hplace⟩ := mem_placeholders_iff.1 h
  obtain ⟨body, rfl, -, hclassify⟩ := writes_placeholder_iff.1 hwritten
  have hbody : '(' ∉ body.toList := fun hmem => hparen (hplace.subset (by simp [braced, hmem]))
  have hformat : ¬ formatMarker <:+: body.toList := fun h => hbody (h.subset (by simp [formatMarker_eq]))
  have hplural : ¬ pluralMarker <:+: body.toList := fun h => hbody (h.subset (by simp [pluralMarker_eq]))
  have hne : body.toList ≠ [] := by
    intro heq
    rw [heq] at hclassify
    cases hclassify
  rw [classifyPlaceholder?_plain hne hformat hplural] at hclassify
  exact ⟨_, (Option.some.inj hclassify).symm⟩

/-! ### Written placeholders -/

/-- The text can stand for the name in a placeholder of any kind. -/
structure IsName (name : String) : Prop where
  ne_empty : name ≠ ""
  braceFree : BraceFree name
  format : ¬ formatMarker <:+: name.toList
  plural : ¬ pluralMarker <:+: name.toList

/-- The text can stand for the spec of a format directive or the forms of a plural directive. -/
structure IsArgument (argument : String) : Prop where
  braceFree : BraceFree argument
  paren_notMem : ')' ∉ argument.toList

theorem IsName.toList_ne_nil {name : String} (h : IsName name) : name.toList ≠ [] := by
  simpa using h.ne_empty

theorem braceFree_call {name marker argument : String} (hname : BraceFree name) (hmarker : BraceFree marker)
    (hargument : BraceFree argument) : BraceFree (name ++ marker ++ argument ++ ")") := by
  intro c hc
  simp only [String.toList_append, List.mem_append] at hc
  rcases hc with ((hc | hc) | hc) | hc
  · exact hname c hc
  · exact hmarker c hc
  · exact hargument c hc
  · obtain rfl : c = ')' := by simpa using hc
    decide

private theorem toList_format (name argument : String) :
    (name ++ ".format(" ++ argument ++ ")").toList =
      name.toList ++ (formatMarker ++ (argument.toList ++ [')'])) := by
  simp only [String.toList_append, List.append_assoc]
  rfl

private theorem toList_plural (name argument : String) :
    (name ++ ".plural(" ++ argument ++ ")").toList =
      name.toList ++ (pluralMarker ++ (argument.toList ++ [')'])) := by
  simp only [String.toList_append, List.append_assoc]
  rfl

variable {name argument : String}

theorem classifyPlaceholder?_written_format (hname : IsName name) (hargument : IsArgument argument) :
    classifyPlaceholder? (name ++ ".format(" ++ argument ++ ")").toList = some (.format name argument) := by
  rw [toList_format, classifyPlaceholder?_format hname.toList_ne_nil hname.format hargument.paren_notMem]
  simp only [String.ofList_toList]

theorem classifyPlaceholder?_written_plain (hname : IsName name) :
    classifyPlaceholder? name.toList = some (.plain name) := by
  rw [classifyPlaceholder?_plain hname.toList_ne_nil hname.format hname.plural, String.ofList_toList]

theorem classifyPlaceholder?_written_plural (hname : IsName name) (hargument : IsArgument argument)
    (hforms : ¬ formatMarker <:+: argument.toList) :
    classifyPlaceholder? (name ++ ".plural(" ++ argument ++ ")").toList = some (.plural name argument) := by
  rw [toList_plural,
    classifyPlaceholder?_plural hname.toList_ne_nil hname.format hname.plural hargument.paren_notMem hforms]
  simp only [String.ofList_toList]

/-- A format marker in the forms ends the name of a format directive, and what follows it is the spec. -/
theorem classifyPlaceholder?_format_in_forms {form spec : String} (hname : IsName name)
    (hargument : IsArgument (form ++ ".format(" ++ spec)) (hform : ¬ formatMarker <:+: form.toList) :
    classifyPlaceholder? (name ++ ".plural(" ++ (form ++ ".format(" ++ spec) ++ ")").toList =
      some (.format (name ++ ".plural(" ++ form) spec) := by
  have hassoc : name ++ ".plural(" ++ (form ++ ".format(" ++ spec) ++ ")" =
      name ++ ".plural(" ++ form ++ ".format(" ++ spec ++ ")" := by
    simp only [String.append_assoc]
  have hlist : (name ++ ".plural(" ++ form).toList = name.toList ++ (pluralMarker ++ form.toList) := by
    simp only [String.toList_append, List.append_assoc]
    rfl
  have hformat : ¬ formatMarker <:+: (name ++ ".plural(" ++ form).toList := by
    rw [hlist, formatMarker_infix_append_pluralMarker_iff]
    exact not_or.2 ⟨hname.format, hform⟩
  have hspec : ')' ∉ spec.toList := by
    intro h
    refine hargument.paren_notMem ?_
    simp only [String.toList_append, List.mem_append]
    exact .inr h
  have hne : (name ++ ".plural(" ++ form).toList ≠ [] := by
    rw [hlist]
    simp [hname.ne_empty]
  rw [hassoc, toList_format, classifyPlaceholder?_format hne hformat hspec]
  simp only [String.ofList_toList]

/-- If there is a format marker in a text, the text can be cut at the first one. -/
private theorem exists_first_format {text : String} (h : formatMarker <:+: text.toList) :
    ∃ form spec, text = form ++ ".format(" ++ spec ∧ ¬ formatMarker <:+: form.toList := by
  obtain ⟨before, after, htext, hbefore⟩ := Text.exists_first_of_infix (by simp [formatMarker_eq]) h
  refine ⟨String.ofList before, String.ofList after, String.toList_inj.1 ?_, ?_⟩
  · simp only [htext, String.toList_append, String.toList_ofList, List.append_assoc]
    rfl
  · rwa [String.toList_ofList]

/-- Wherever they stand, format directives and plain directives are found as they were written.  A plural directive is
found as it was written if there is no format marker in its forms, and else it is taken for a format directive with
everything before the first such marker as its name. -/
theorem placeholder_read_back (hname : IsName name) (hargument : IsArgument argument) (before after : String) :
    let format := braced (name ++ ".format(" ++ argument ++ ")")
    let plural := braced (name ++ ".plural(" ++ argument ++ ")")
    Frame.DirectiveAt (placeholders (before ++ format ++ after)) before format (.format name argument) ∧
      Frame.DirectiveAt (placeholders (before ++ braced name ++ after)) before (braced name) (.plain name) ∧
      (Frame.DirectiveAt (placeholders (before ++ plural ++ after)) before plural (.plural name argument) ↔
        ¬ formatMarker <:+: argument.toList) ∧
      ∀ form spec, argument = form ++ ".format(" ++ spec → ¬ formatMarker <:+: form.toList →
        Frame.DirectiveAt (placeholders (before ++ plural ++ after)) before plural
          (.format (name ++ ".plural(" ++ form) spec) := by
  intro format plural
  have hformat : BraceFree (name ++ ".format(" ++ argument ++ ")") :=
    braceFree_call hname.braceFree (by decide) hargument.braceFree
  have hplural : BraceFree (name ++ ".plural(" ++ argument ++ ")") :=
    braceFree_call hname.braceFree (by decide) hargument.braceFree
  have hcut : ∀ form spec, argument = form ++ ".format(" ++ spec → ¬ formatMarker <:+: form.toList →
      Frame.DirectiveAt (placeholders (before ++ plural ++ after)) before plural
        (.format (name ++ ".plural(" ++ form) spec) := by
    rintro form spec rfl hform
    rw [directiveAt_braced_iff hplural]
    exact classifyPlaceholder?_format_in_forms hname hargument hform
  refine ⟨?_, ?_, ⟨?_, ?_⟩, hcut⟩
  · rw [directiveAt_braced_iff hformat]
    exact classifyPlaceholder?_written_format hname hargument
  · rw [directiveAt_braced_iff hname.braceFree]
    exact classifyPlaceholder?_written_plain hname
  · intro hfound hforms
    -- There is only one directive at a place, and it is the one that the first format marker makes.
    obtain ⟨form, spec, heq, hform⟩ := exists_first_format hforms
    have hother := hcut form spec heq hform
    rw [directiveAt_braced_iff hplural] at hfound hother
    cases hfound.symm.trans hother
  · intro hforms
    rw [directiveAt_braced_iff hplural]
    exact classifyPlaceholder?_written_plural hname hargument hforms

private theorem isName_n : IsName "n" :=
  ⟨by decide, by decide, Text.splitAt?_eq_none_iff.1 (by decide), Text.splitAt?_eq_none_iff.1 (by decide)⟩

private theorem isArgument_format : IsArgument "a.format(b" :=
  ⟨by decide, by decide⟩

/-- A plural directive with a form that holds the format marker: it is taken for a format directive. -/
theorem plural_taken_for_format :
    let written := braced "n.plural(a.format(b)"
    IsName "n" ∧ IsArgument "a.format(b" ∧
      ¬ Frame.DirectiveAt (placeholders ("" ++ written ++ "")) "" written (.plural "n" "a.format(b") ∧
      placeholders written = [.directive written (.format "n.plural(a" "b")] := by
  intro written
  have hbody : BraceFree "n.plural(a.format(b)" := by decide
  refine ⟨isName_n, isArgument_format, ?_, by decide +kernel⟩
  rw [directiveAt_braced_iff hbody]
  decide +kernel

/-- Braces before and behind, and the format marker in the argument. -/
theorem placeholder_read_back_between_braces :
    let format := braced ("n" ++ ".format(" ++ "a.format(b" ++ ")")
    let plural := braced ("n" ++ ".plural(" ++ "a.format(b" ++ ")")
    IsName "n" ∧ IsArgument "a.format(b" ∧
      Frame.DirectiveAt (placeholders ("\x7b\x7b\x7b" ++ format ++ "\x7d")) "\x7b\x7b\x7b" format
        (.format "n" "a.format(b") ∧
      Frame.DirectiveAt (placeholders ("\x7b\x7b\x7b" ++ braced "n" ++ "\x7d")) "\x7b\x7b\x7b" (braced "n")
        (.plain "n") ∧
      (Frame.DirectiveAt (placeholders ("\x7b\x7b\x7b" ++ plural ++ "\x7d")) "\x7b\x7b\x7b" plural
          (.plural "n" "a.format(b") ↔ ¬ formatMarker <:+: "a.format(b".toList) ∧
      ∀ form spec, "a.format(b" = form ++ ".format(" ++ spec → ¬ formatMarker <:+: form.toList →
        Frame.DirectiveAt (placeholders ("\x7b\x7b\x7b" ++ plural ++ "\x7d")) "\x7b\x7b\x7b" plural
          (.format ("n" ++ ".plural(" ++ form) spec) := by
  intro format plural
  exact ⟨isName_n, isArgument_format,
    placeholder_read_back isName_n isArgument_format "\x7b\x7b\x7b" "\x7d"⟩

end Phrasebook.Template
