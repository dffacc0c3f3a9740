import Phrasebook.Proofs.Evaluation.Fusion
import Phrasebook.Proofs.Evaluation.Unbound
import Phrasebook.Proofs.Lint.Warnings

/-!
# Dangling references

The lint reads a reference as it is written; the evaluation reads it after values have been put into it.  So a reference
that is reported as dangling stays empty where no name in a placeholder of its target has a value, and if there is a
placeholder in its target, there are values with which it does not (`dangling_reference_stays_empty`).

For the second part the name is given an opening parenthesis.  With it the text is no reference any more, and its dollar
sign is literal text.
-/

namespace Phrasebook

namespace Evaluation

variable {tree : Tree} {target : String}

private theorem fst_evalTemplate_reference {c : Context} (hne : target ≠ "")
    (hparens : ∀ c ∈ target.toList, c ≠ '(' ∧ c ≠ ')') (hraw : tree.raw? target = none)
    (hunbound : Template.Unbound c.replacements target) :
    (evalTemplate tree ("$t(" ++ target ++ ")") c).1 = .ok "" := by
  have hwhole : Template.Unbound c.replacements ("$t(" ++ target ++ ")") := by
    rintro (text | ⟨raw, directive⟩) hmem
    · simp [Segment.name?]
    · exact hunbound _ ((Template.mem_placeholders_append_iff (by decide) (by decide)).1 hmem)
  rw [evalTemplate_of_ok tree (prepare_of_unbound hwhole)]
  unfold expandReferences
  rw [Lint.references_reference hne hparens, expandSegments_of_ok [] rfl (fst_evalKey_of_raw?_none c hraw)]
  rfl

/-! ### An opening parenthesis as value -/

private def opened (name : String) : Replacements :=
  .ofList [(name, .text "(")]

private theorem get?_opened (name other : String) :
    (opened name).get? other = if other = name then some (.text "(") else none := by
  unfold opened Replacements.get?
  by_cases hother : other = name
  · simp [Replacements.ofList, Replacements.bind, Replacements.empty, hother]
  · have hne : (other == name) = false := by simpa using hother
    simp [Replacements.ofList, Replacements.bind, Replacements.empty, hother, List.lookup_cons, hne]

private theorem exists_end_of_append {first rest front : List Char} {last : Char}
    (h : first ++ rest = front ++ [last]) (hne : rest ≠ []) :
    ∃ inner, rest = inner ++ [last] ∧ front = first ++ inner := by
  obtain ⟨inner, c, rfl⟩ := (List.eq_nil_or_concat rest).resolve_left hne
  rw [List.concat_eq_append, ← List.append_assoc] at h
  obtain ⟨hfront, hlast⟩ := List.append_inj' h rfl
  exact ⟨inner, by rw [List.concat_eq_append, hlast], hfront.symm⟩

/-- The parenthesis that is put in stands before the one at the end. -/
private theorem exists_opening {replace : Directive → Except EvalError (Option String)} {segments : List Segment}
    {front : List Char} {text : String} (hfront : ∀ c ∈ front, c ≠ '(' ∧ c ≠ ')')
    (hsources : Frame.sources segments = front ++ [')']) (hnonempty : ∀ segment ∈ segments, segment.source ≠ "")
    (hput : ∀ segment ∈ segments, ∀ here, Replaced replace segment here → here = "(")
    (hsome : ∃ segment ∈ segments, Replaced replace segment "(") (h : substitute replace segments = .ok text) :
    ∃ before after, text.toList = before ++ '(' :: after ∧ ∀ c ∈ before, c ≠ '(' ∧ c ≠ ')' := by
  induction segments generalizing front text with
  | nil =>
    obtain ⟨segment, hmem, -⟩ := hsome
    cases hmem
  | cons segment rest ih =>
    obtain ⟨here, more, hhere, hrest, rfl⟩ := substitute_cons_eq_ok.1 h
    by_cases hopening : here = "("
    · exact ⟨[], more.toList, by simp [hopening], by simp⟩
    · have hkept : here = segment.source := by
        rcases replaced_or_source hhere with hreplaced | hsource
        · exact absurd (hput segment List.mem_cons_self here hreplaced) hopening
        · exact hsource
      have hlater : ∃ segment ∈ rest, Replaced replace segment "(" := by
        obtain ⟨other, hmem, hreplaced⟩ := hsome
        rcases List.mem_cons.1 hmem with rfl | hmem
        · have hother := substituted_eq_ok_iff.2 (.inr (.inl hreplaced))
          rw [hhere] at hother
          exact absurd (Except.ok.inj hother) hopening
        · exact ⟨other, hmem, hreplaced⟩
      -- What follows is not empty, so it ends with the parenthesis that the segments end with.
      have hne : Frame.sources rest ≠ [] := by
        obtain ⟨other, hmem, -⟩ := hlater
        intro hnil
        have hother := List.flatMap_eq_nil_iff.1 hnil other hmem
        exact hnonempty other (List.mem_cons_of_mem _ hmem) (by simpa using hother)
      rw [Frame.sources_cons] at hsources
      obtain ⟨inner, hinner, rfl⟩ := exists_end_of_append hsources hne
      obtain ⟨before, after, hmore, hbefore⟩ := ih (fun c hc => hfront c (List.mem_append_right _ hc)) hinner
        (fun segment hmem => hnonempty segment (List.mem_cons_of_mem _ hmem))
        (fun segment hmem => hput segment (List.mem_cons_of_mem _ hmem)) hlater hrest
      refine ⟨segment.source.toList ++ before, after, by simp [hkept, hmore], ?_⟩
      intro c hc
      rcases List.mem_append.1 hc with hc | hc
      · exact hfront c (List.mem_append_left _ hc)
      · exact hbefore c hc

private theorem not_startsFormat_reference {name : String} (hparens : ∀ c ∈ target.toList, c ≠ '(' ∧ c ≠ ')') :
    ¬ StartsFormat ("$t(" ++ target ++ ")") name := by
  intro hstarts
  have hmarker : ("\x7b\x7b" ++ name ++ ".format(").toList = '{' :: ('{' :: name.toList ++ ".format(".toList) := by
    simp only [String.toList_append]
    rfl
  have htext : ("$t(" ++ target ++ ")").toList = "$t(".toList ++ (target.toList ++ ")".toList) := by
    simp only [String.toList_append, List.append_assoc]
  unfold StartsFormat at hstarts
  rw [hmarker, htext, Text.cons_infix_append_iff (by decide)] at hstarts
  have hmem : '(' ∈ target.toList ++ ")".toList := hstarts.subset (by simp)
  rcases List.mem_append.1 hmem with hmem | hmem
  · exact (hparens _ hmem).1 rfl
  · exact absurd hmem (by decide)

/-- With the parenthesis put in, no reference is left at the beginning. -/
private theorem references_of_opening {text : String} {before after : List Char}
    (htext : text.toList = '$' :: 't' :: '(' :: (before ++ '(' :: after)) (hbefore : ∀ c ∈ before, c ≠ '(' ∧ c ≠ ')') :
    ∃ rest, Template.references text = .literal "$" :: rest := by
  unfold Template.references
  rw [htext, Frame.scan, if_pos (show '$' = Template.reference.mark from rfl)]
  split
  · next directive raw rest hfound =>
    exfalso
    obtain ⟨hwritten, hsplit⟩ := Frame.writes_of_directive? hfound
    generalize hraw : Template.reference.mark :: raw = written at hwritten
    obtain ⟨body, hbody, -⟩ := hwritten
    obtain rfl := List.tail_eq_of_cons_eq hraw
    have hsame : before ++ '(' :: after = body ++ ')' :: rest := by simpa [Template.reference] using hsplit
    rcases List.append_eq_append_iff.1 hsame with ⟨inner, rfl, hinner⟩ | ⟨inner, rfl, hinner⟩
    · rcases inner with _ | ⟨c, inner⟩
      · simp at hinner
      · obtain ⟨rfl, -⟩ := List.cons.inj hinner
        exact absurd (hbody '(' (by simp)) (by decide)
    · rcases inner with _ | ⟨c, inner⟩
      · simp at hinner
      · obtain ⟨rfl, -⟩ := List.cons.inj hinner
        exact (hbefore ')' (by simp)).2 rfl
  · exact ⟨_, rfl⟩

private theorem mem_placeholders_append_paren_iff {raw : String} {directive : Directive} :
    .directive raw directive ∈ Template.placeholders (target ++ ")") ↔
      .directive raw directive ∈ Template.placeholders target := by
  have h := @Template.mem_placeholders_append_iff "" target ")" raw directive (by decide) (by decide)
  rwa [String.empty_append] at h

private theorem interpolation_opened {name other : String} (hparens : ∀ c ∈ target.toList, c ≠ '(' ∧ c ≠ ')') :
    interpolation (opened name) ("$t(" ++ target ++ ")") (.plain other) =
      .ok (if other = name then some "(" else none) := by
  rw [interpolation_plain, if_neg (not_startsFormat_reference hparens), get?_opened]
  split <;> rfl

private theorem exists_opening_of_interpolate {raw name text : String}
    (hparens : ∀ c ∈ target.toList, c ≠ '(' ∧ c ≠ ')')
    (hmem : .directive raw (.plain name) ∈ Template.placeholders target)
    (h : interpolate (opened name) ("$t(" ++ target ++ ")") = .ok text) :
    ∃ before after, text.toList = '$' :: 't' :: '(' :: (before ++ '(' :: after) ∧
      ∀ c ∈ before, c ≠ '(' ∧ c ≠ ')' := by
  have hparen : '(' ∉ target.toList := fun h => (hparens _ h).1 rfl
  have hsplit : ("$t(" ++ target ++ ")").toList = "$t(".toList ++ (target ++ ")").toList := by
    simp only [String.toList_append, List.append_assoc]
  unfold interpolate Template.placeholders at h
  rw [hsplit, substitute_scan_append_iff (by decide)] at h
  obtain ⟨more, hmore, rfl⟩ := h
  have hsources : Frame.sources (Template.placeholders (target ++ ")")) = target.toList ++ [')'] := by
    unfold Template.placeholders
    rw [Frame.sources_scan, String.toList_append]
    rfl
  have hput : ∀ segment ∈ Template.placeholders (target ++ ")"), ∀ here,
      Replaced (interpolation (opened name) ("$t(" ++ target ++ ")")) segment here → here = "(" := by
    rintro _ hsegment here ⟨raw, directive, rfl, hreplace⟩
    obtain ⟨other, rfl⟩ :=
      Template.eq_plain_of_mem_placeholders hparen (mem_placeholders_append_paren_iff.1 hsegment)
    rw [interpolation_opened hparens] at hreplace
    split at hreplace
    · simpa [eq_comm] using hreplace
    · simp at hreplace
  have hsome : ∃ segment ∈ Template.placeholders (target ++ ")"),
      Replaced (interpolation (opened name) ("$t(" ++ target ++ ")")) segment "(" := by
    refine ⟨_, mem_placeholders_append_paren_iff.2 hmem, raw, .plain name, rfl, ?_⟩
    rw [interpolation_opened hparens, if_pos rfl]
  obtain ⟨before, after, htext, hbefore⟩ := exists_opening hparens hsources
    (fun segment hsegment => Frame.source_ne_empty_of_mem_scan hsegment) hput hsome hmore
  exact ⟨before, after, by simp [htext], hbefore⟩

private theorem pluralization_opened_ne {name here : String} {directive : Directive} :
    pluralization (opened name) directive ≠ .ok (some here) := by
  cases directive with
  | plural other forms =>
    by_cases hother : other = name
    · have hnone : (Value.text "(").toBinary64? = none := by decide +kernel
      simp [pluralization, get?_opened, hother, hnone]
    · simp [pluralization, get?_opened, hother]
  | plain | format | reference =>
    intro h
    cases h

/-- If there is a placeholder in the target, the reference does not stay empty with every value. -/
private theorem exists_fst_evalTemplate_ne {raw : String} {directive : Directive}
    (hparens : ∀ c ∈ target.toList, c ≠ '(' ∧ c ≠ ')')
    (hmem : .directive raw directive ∈ Template.placeholders target) (maxDepth : Nat) :
    ∃ replacements, (evalTemplate tree ("$t(" ++ target ++ ")") (.fresh replacements maxDepth)).1 ≠ .ok "" := by
  have hparen : '(' ∉ target.toList := fun h => (hparens _ h).1 rfl
  obtain ⟨name, rfl⟩ := Template.eq_plain_of_mem_placeholders hparen hmem
  refine ⟨opened name, fun heval => ?_⟩
  cases hprepare : prepare (opened name) ("$t(" ++ target ++ ")") with
  | error error =>
    rw [evalTemplate_of_error tree hprepare] at heval
    cases heval
  | ok text =>
    rw [evalTemplate_of_ok tree hprepare] at heval
    obtain ⟨middle, hmiddle, htext⟩ : ∃ middle, interpolate (opened name) ("$t(" ++ target ++ ")") = .ok middle ∧
        pluralize (opened name) middle = .ok text := Except.bind_eq_ok_iff.1 hprepare
    -- The second pass has no count, so it replaces nothing.
    have hsame : text.toList = middle.toList := by
      rw [toList_of_not_replaced htext, Template.placeholders, Frame.sources_scan]
      rintro segment - here ⟨raw, directive, rfl, hreplace⟩
      exact pluralization_opened_ne hreplace
    obtain ⟨before, after, hopening, hbefore⟩ := exists_opening_of_interpolate hparens hmem hmiddle
    obtain ⟨rest, hrest⟩ := references_of_opening (hsame.trans hopening) hbefore
    unfold expandReferences at heval
    rw [hrest, expandSegments_of_target?_none _ rest _ rfl] at heval
    obtain ⟨more, -, hmore⟩ := Except.map_eq_ok_iff.1 heval
    simp [Segment.source] at hmore

end Evaluation

namespace Lint

open Evaluation

/-- Whatever the ceiling, a reference that is reported as dangling stays empty if no name in a placeholder of its target
has a value.  It does so with all values just if there is no placeholder in its target. -/
theorem dangling_reference_stays_empty {tree : Tree} {key target : String} {suggestions : List String}
    (h : .danglingReference key target suggestions ∈ warnings tree) (maxDepth : Nat) :
    (∀ replacements, Template.Unbound replacements target →
        (evalTemplate tree ("$t(" ++ target ++ ")") (.fresh replacements maxDepth)).1 = .ok "") ∧
      ((∀ replacements, (evalTemplate tree ("$t(" ++ target ++ ")") (.fresh replacements maxDepth)).1 = .ok "") ↔
        ∀ raw directive, .directive raw directive ∉ Template.placeholders target) := by
  obtain ⟨⟨text, -, hne, hparens, -⟩, hraw, -⟩ := danglingReference_mem_warnings_iff.1 h
  have hempty (replacements : Replacements) (hunbound : Template.Unbound replacements target) :
      (evalTemplate tree ("$t(" ++ target ++ ")") (.fresh replacements maxDepth)).1 = .ok "" :=
    fst_evalTemplate_reference hne hparens hraw hunbound
  refine ⟨hempty, ?_, ?_⟩
  · intro hall raw directive hmem
    obtain ⟨replacements, hother⟩ := @exists_fst_evalTemplate_ne tree _ _ _ hparens hmem maxDepth
    exact hother (hall replacements)
  · intro hnone replacements
    refine hempty replacements ?_
    rintro (text | ⟨raw, directive⟩) hmem
    · simp [Segment.name?]
    · exact absurd hmem (hnone raw directive)

/-- The target of this dangling reference is a placeholder, and with a key as its value there is a message to put in. -/
theorem dangling_reference_resolves :
    let tree : Tree := .object [("a", .scalar "$t({{n}})"), ("b", .scalar "B")]
    let replacements : Replacements := .ofList [("n", .text "b")]
    .danglingReference "a" "{{n}}" [] ∈ warnings tree ∧
      (evalTemplate tree ("$t(" ++ "{{n}}" ++ ")") (.fresh replacements 1)).1 = .ok "B" := by
  decide +kernel

/-- The value of another name leaves the target as it is. -/
theorem dangling_reference_stays_empty_without_value :
    let tree : Tree := .object [("a", .scalar "$t({{m}})"), ("b", .scalar "B")]
    let replacements : Replacements := .ofList [("n", .text "b")]
    .danglingReference "a" "{{m}}" [] ∈ warnings tree ∧ Template.Unbound replacements "{{m}}" ∧
      (evalTemplate tree ("$t(" ++ "{{m}}" ++ ")") (.fresh replacements 1)).1 = .ok "" := by
  intro tree replacements
  have hwarning : .danglingReference "a" "{{m}}" [] ∈ warnings tree := by decide +kernel
  have hunbound : Template.Unbound replacements "{{m}}" := by decide +kernel
  exact ⟨hwarning, hunbound, (dangling_reference_stays_empty hwarning 1).1 replacements hunbound⟩

end Lint

end Phrasebook
