import Phrasebook.Template.Frame

/-!
# Where directives are written

Scanning loses nothing: the texts of the segments are the text (`sources_scan`), and none of them is empty
(`source_ne_empty_of_mem_scan`).  If no directive begins inside another one, directives do not overlap
(`eq_of_overlap`), and a scan finds a directive wherever one is written, and nowhere else
(`scan_eq_append_directive_iff`, `directiveAt_scan_iff`), so that what stands around it does not matter.
-/

namespace Phrasebook.Frame

variable {frame : Frame}

/-- The text of segments, one after the other. -/
def sources (segments : List Segment) : List Char :=
  segments.flatMap (·.source.toList)

@[simp] theorem sources_nil : sources [] = [] := rfl

@[simp] theorem sources_cons (segment : Segment) (rest : List Segment) :
    sources (segment :: rest) = segment.source.toList ++ sources rest := rfl

/-- The frame writes a directive so. -/
inductive Writes (frame : Frame) (directive : Directive) : List Char → Prop where
  | intro (body : List Char) (inBody : ∀ c ∈ body, frame.inBody c = true)
      (classify : frame.classify? body = some directive) :
      Writes frame directive (frame.mark :: (frame.opening ++ body ++ frame.closing))

theorem Writes.exists_cons {directive : Directive} {written : List Char} (h : frame.Writes directive written) :
    ∃ raw, written = frame.mark :: raw := by
  cases h with
  | intro body => exact ⟨_, rfl⟩

/-- A body ends where the closing begins, and no directive begins inside another one. -/
structure Separated (frame : Frame) : Prop where
  closing : ∃ c rest, frame.closing = c :: rest ∧ frame.inBody c = false
  inside : ∀ body, (∀ c ∈ body, frame.inBody c = true) → ∀ before inner after, before ≠ [] → inner ≠ [] →
    frame.mark :: (frame.opening ++ body ++ frame.closing) = before ++ inner →
    ¬ frame.mark :: frame.opening <+: inner ++ after

/-- What is taken for a directive is written as one. -/
theorem writes_of_directive? {text raw rest : List Char} {directive : Directive}
    (h : frame.directive? text = some (directive, raw, rest)) :
    frame.Writes directive (frame.mark :: raw) ∧ text = raw ++ rest := by
  unfold directive? at h
  split at h
  · next hopening =>
    obtain ⟨inner, rfl⟩ := List.isPrefixOf_iff_prefix.1 hopening
    rw [List.drop_left] at h
    dsimp only at h
    split at h
    · next hclosing =>
      obtain ⟨after, hafter⟩ := List.isPrefixOf_iff_prefix.1 hclosing
      obtain ⟨_, hclassify, heq⟩ := Option.map_eq_some_iff.1 h
      rw [← hafter, List.drop_left] at heq
      obtain ⟨rfl, rfl, rfl⟩ := heq
      refine ⟨.intro _ (fun c hc => List.all_eq_true.1 List.all_takeWhile c hc) hclassify, ?_⟩
      rw [List.append_assoc, List.append_assoc, hafter, List.takeWhile_append_dropWhile]
    · cases h
  · cases h

/-- What is written as a directive is taken for it. -/
theorem directive?_of_writes (hclosing : ∃ c rest, frame.closing = c :: rest ∧ frame.inBody c = false)
    {raw : List Char} {directive : Directive} (h : frame.Writes directive (frame.mark :: raw)) (rest : List Char) :
    frame.directive? (raw ++ rest) = some (directive, raw, rest) := by
  generalize hwritten : frame.mark :: raw = written at h
  cases h with
  | intro body inBody classify =>
    obtain rfl := List.tail_eq_of_cons_eq hwritten
    obtain ⟨c, more, hcons, hc⟩ := hclosing
    have htake : (body ++ (frame.closing ++ rest)).takeWhile frame.inBody = body := by
      rw [List.takeWhile_append_of_pos inBody, hcons, List.cons_append,
        List.takeWhile_cons_of_neg (by simp [hc]), List.append_nil]
    have hdrop : (body ++ (frame.closing ++ rest)).dropWhile frame.inBody = frame.closing ++ rest := by
      rw [List.dropWhile_append_of_pos inBody, hcons, List.cons_append, List.dropWhile_cons_of_neg (by simp [hc])]
    have hopening : frame.opening.isPrefixOf (frame.opening ++ (body ++ (frame.closing ++ rest))) = true :=
      List.isPrefixOf_iff_prefix.2 (List.prefix_append _ _)
    have hclosing : frame.closing.isPrefixOf (frame.closing ++ rest) = true :=
      List.isPrefixOf_iff_prefix.2 (List.prefix_append _ _)
    unfold directive?
    rw [List.append_assoc, List.append_assoc, if_pos hopening, List.drop_left]
    dsimp only
    rw [htake, hdrop, if_pos hclosing, classify, List.drop_left, List.append_assoc]
    rfl

/-- A directive at the beginning of a text is its first segment. -/
theorem scan_append_of_writes (hclosing : ∃ c rest, frame.closing = c :: rest ∧ frame.inBody c = false)
    {written : List Char} {directive : Directive} (h : frame.Writes directive written) (text : List Char) :
    frame.scan (written ++ text) = .directive (String.ofList written) directive :: frame.scan text := by
  obtain ⟨raw, rfl⟩ := h.exists_cons
  have hfound := directive?_of_writes hclosing h text
  rw [List.cons_append]
  conv => lhs; unfold scan
  rw [if_pos rfl]
  split
  · next hother =>
    obtain ⟨rfl, rfl, rfl⟩ : _ ∧ _ ∧ _ := by simpa [hfound] using hother
    rfl
  · next hnone =>
    rw [hfound] at hnone
    cases hnone

/-- Scanning loses nothing. -/
theorem sources_scan (frame : Frame) (text : List Char) : sources (frame.scan text) = text := by
  fun_induction frame.scan text with
  | case1 => rfl
  | case2 rest directive raw after h ih =>
    rw [sources_cons, ih, (writes_of_directive? h).2]
    simp [Segment.source]
  | case3 rest h ih =>
    rw [sources_cons, ih]
    simp [Segment.source]
  | case4 c rest hc ih =>
    rw [sources_cons, ih]
    simp [Segment.source]

/-- A scan goes on by at least one character. -/
theorem source_ne_empty_of_mem_scan {text : List Char} {segment : Segment} (h : segment ∈ frame.scan text) :
    segment.source ≠ "" := by
  fun_induction frame.scan text with
  | case1 => cases h
  | case2 rest directive raw after hfound ih =>
    rcases List.mem_cons.1 h with rfl | h
    · simp [Segment.source]
    · exact ih h
  | case3 rest hfound ih =>
    rcases List.mem_cons.1 h with rfl | h
    · simp [Segment.source]
    · exact ih h
  | case4 c rest hc ih =>
    rcases List.mem_cons.1 h with rfl | h
    · simp [Segment.source]
    · exact ih h

/-- What a scan finds is written there. -/
theorem writes_of_mem_scan {text : List Char} {pre post : List Segment} {raw : String} {directive : Directive}
    (h : frame.scan text = pre ++ .directive raw directive :: post) : frame.Writes directive raw.toList := by
  fun_induction frame.scan text generalizing pre with
  | case1 => simp at h
  | case2 rest found raw' after hfound ih =>
    cases pre with
    | nil =>
      obtain ⟨⟨rfl, rfl⟩, -⟩ : (_ ∧ _) ∧ _ := by simpa using h
      simpa using (writes_of_directive? hfound).1
    | cons segment pre => exact ih (by simpa using (List.cons.inj h).2)
  | case3 rest hfound ih =>
    cases pre with
    | nil => simp at h
    | cons segment pre => exact ih (List.cons.inj h).2
  | case4 c rest hc ih =>
    cases pre with
    | nil => simp at h
    | cons segment pre => exact ih (List.cons.inj h).2

/-- A directive that is written after another one has begun is written after its end. -/
private theorem after_of_writes (hframe : frame.Separated) {first second before after rest : List Char}
    {directive directive' : Directive} (hfirst : frame.Writes directive first)
    (hsecond : frame.Writes directive' second) (hbefore : before ≠ []) (h : before ++ second ++ after = first ++ rest) :
    ∃ between, before = first ++ between ∧ rest = between ++ second ++ after := by
  rw [List.append_assoc, List.append_eq_append_iff] at h
  rcases h with ⟨inner, hinner, hrest⟩ | ⟨between, hbetween, hrest⟩
  · rcases inner with _ | ⟨c, inner⟩
    · exact ⟨[], by simpa using hinner.symm, by simpa using hrest.symm⟩
    · cases hfirst with
      | intro body inBody =>
        cases hsecond with
        | intro body' =>
          refine absurd ?_ (hframe.inside body inBody before (c :: inner) rest hbefore (by simp) hinner)
          rw [← hrest]
          simp [List.append_assoc]
  · exact ⟨between, hbetween, by rw [hrest, List.append_assoc]⟩

/-- There is at most one directive at the beginning of a text. -/
private theorem eq_of_writes (hframe : frame.Separated) {first second rest rest' : List Char}
    {directive directive' : Directive} (hfirst : frame.Writes directive first)
    (hsecond : frame.Writes directive' second) (h : first ++ rest = second ++ rest') :
    first = second ∧ directive = directive' := by
  obtain ⟨raw, rfl⟩ := hfirst.exists_cons
  obtain ⟨raw', rfl⟩ := hsecond.exists_cons
  have htext : raw ++ rest = raw' ++ rest' := List.tail_eq_of_cons_eq h
  have hfound := directive?_of_writes hframe.closing hfirst rest
  rw [htext, directive?_of_writes hframe.closing hsecond rest'] at hfound
  obtain ⟨rfl, rfl, -⟩ : directive' = directive ∧ raw' = raw ∧ rest' = rest := by simpa using hfound
  exact ⟨rfl, rfl⟩

/-- A directive that is written before another one ends is this other one. -/
private theorem eq_of_begins_inside (hframe : frame.Separated) {first second before after rest : List Char}
    {directive directive' : Directive} (hfirst : frame.Writes directive first)
    (hsecond : frame.Writes directive' second) (h : before ++ second ++ after = first ++ rest)
    (hinside : before.length < first.length) : before = [] ∧ first = second ∧ directive = directive' := by
  by_cases hbefore : before = []
  · subst hbefore
    exact ⟨rfl, eq_of_writes hframe hfirst hsecond h.symm⟩
  · obtain ⟨between, rfl, -⟩ := after_of_writes hframe hfirst hsecond hbefore h
    simp only [List.length_append] at hinside
    omega

/-- Two directives that are written in a text do not overlap unless they are the same one. -/
theorem eq_of_overlap (hframe : frame.Separated) {first second before before' after after' : List Char}
    {directive directive' : Directive} (hfirst : frame.Writes directive first)
    (hsecond : frame.Writes directive' second) (h : before ++ first ++ after = before' ++ second ++ after')
    (hinside : before.length < before'.length + second.length)
    (hinside' : before'.length < before.length + first.length) : first = second ∧ directive = directive' := by
  rw [List.append_assoc, List.append_assoc, List.append_eq_append_iff] at h
  rcases h with ⟨inner, rfl, htext⟩ | ⟨inner, rfl, htext⟩
  · rw [List.length_append] at hinside'
    exact (eq_of_begins_inside hframe hfirst hsecond (by rw [htext, List.append_assoc]) (by omega)).2
  · rw [List.length_append] at hinside
    obtain ⟨-, rfl, rfl⟩ :=
      eq_of_begins_inside hframe hsecond hfirst (by rw [htext, List.append_assoc]) (by omega)
    exact ⟨rfl, rfl⟩

/-- Text before a mark is cut there. -/
private theorem span_append_mark (frame : Frame) (before rest : List Char) :
    (before ++ frame.mark :: rest).takeWhile (· != frame.mark) = before.takeWhile (· != frame.mark) ∧
      (before ++ frame.mark :: rest).dropWhile (· != frame.mark) =
        before.dropWhile (· != frame.mark) ++ frame.mark :: rest := by
  induction before with
  | nil => simp
  | cons c before ih =>
    by_cases hc : c = frame.mark
    · simp [hc]
    · simp [hc, ih]

/-- A scan finds what is written. -/
private theorem exists_scan_of_writes (hframe : frame.Separated) {before written after : List Char}
    {directive : Directive} (hwritten : frame.Writes directive written) :
    ∃ pre post, frame.scan (before ++ written ++ after) = pre ++ .directive (String.ofList written) directive :: post ∧
      sources pre = before := by
  obtain ⟨raw, rfl⟩ := hwritten.exists_cons
  generalize htext : before ++ frame.mark :: raw ++ after = text
  fun_induction frame.scan text generalizing before with
  | case1 => simp at htext
  | case2 rest found raw' rest' hfound ih =>
    obtain ⟨hfirst, rfl⟩ := writes_of_directive? hfound
    -- The directive is the one that is found here, or it stands behind that one.
    by_cases hbefore : before = []
    · subst hbefore
      have hhere := directive?_of_writes hframe.closing hwritten after
      rw [← show raw' ++ rest' = raw ++ after by simpa using htext.symm, hfound] at hhere
      obtain ⟨rfl, rfl, rfl⟩ : found = directive ∧ raw' = raw ∧ rest' = after := by simpa using hhere
      exact ⟨[], frame.scan rest', rfl, rfl⟩
    · obtain ⟨between, rfl, hrest⟩ := after_of_writes hframe hfirst hwritten hbefore (by simpa using htext)
      obtain ⟨pre, post, hscan, hpre⟩ := ih hrest.symm
      refine ⟨.directive (String.ofList (frame.mark :: raw')) found :: pre, post, by rw [hscan]; rfl, ?_⟩
      simp [Segment.source, hpre]
  | case3 rest hfound ih =>
    rcases before with _ | ⟨c, before⟩
    · have hhere := directive?_of_writes hframe.closing hwritten after
      rw [show raw ++ after = rest by simpa using htext, hfound] at hhere
      cases hhere
    · obtain ⟨rfl, hrest⟩ := List.cons.inj htext
      obtain ⟨pre, post, hscan, hpre⟩ := ih hrest
      refine ⟨.literal (String.ofList [frame.mark]) :: pre, post, by rw [hscan]; rfl, ?_⟩
      simp [Segment.source, hpre]
  | case4 c rest hc ih =>
    rcases before with _ | ⟨c', before⟩
    · exact absurd (List.cons.inj htext).1.symm hc
    · obtain ⟨rfl, hrest⟩ := List.cons.inj htext
      obtain ⟨htake, hdrop⟩ := span_append_mark frame before (raw ++ after)
      have hrest : rest = before ++ frame.mark :: (raw ++ after) := by simpa using hrest.symm
      rw [hrest] at ih ⊢
      rw [hdrop] at ih
      rw [htake, hdrop]
      obtain ⟨pre, post, hscan, hpre⟩ := ih (List.append_assoc _ _ _)
      refine ⟨.literal (String.ofList (c' :: before.takeWhile (· != frame.mark))) :: pre, post, by rw [hscan]; rfl, ?_⟩
      rw [sources_cons, hpre]
      simp [Segment.source]

/-- The places where a scan finds a directive are those where it is written. -/
theorem scan_eq_append_directive_iff (hframe : frame.Separated) {text before written : List Char}
    {directive : Directive} :
    (∃ pre post, frame.scan text = pre ++ .directive (String.ofList written) directive :: post ∧ sources pre = before) ↔
      frame.Writes directive written ∧ ∃ after, text = before ++ written ++ after := by
  constructor
  · rintro ⟨pre, post, hscan, rfl⟩
    refine ⟨by simpa using writes_of_mem_scan hscan, sources post, ?_⟩
    rw [← sources_scan frame text, hscan]
    simp [sources, Segment.source]
  · rintro ⟨hwritten, after, rfl⟩
    exact exists_scan_of_writes hframe hwritten

/-- Behind the text `before` the segments have this directive, written as `raw`. -/
def DirectiveAt (segments : List Segment) (before raw : String) (directive : Directive) : Prop :=
  ∃ pre post, segments = pre ++ .directive raw directive :: post ∧ sources pre = before.toList

theorem mem_iff_exists_directiveAt {segments : List Segment} {raw : String} {directive : Directive} :
    .directive raw directive ∈ segments ↔ ∃ before, DirectiveAt segments before raw directive := by
  constructor
  · intro hmem
    obtain ⟨pre, post, hsplit⟩ := List.append_of_mem hmem
    exact ⟨String.ofList (sources pre), pre, post, hsplit, String.toList_ofList.symm⟩
  · rintro ⟨before, pre, post, rfl, -⟩
    simp

theorem directiveAt_scan_iff (hframe : frame.Separated) {text before raw : String} {directive : Directive} :
    DirectiveAt (frame.scan text.toList) before raw directive ↔
      frame.Writes directive raw.toList ∧ ∃ after, text = before ++ raw ++ after := by
  unfold DirectiveAt
  rw [← String.ofList_toList (s := raw), scan_eq_append_directive_iff hframe, String.ofList_toList]
  refine and_congr_right fun _ => ⟨?_, ?_⟩
  · rintro ⟨after, htext⟩
    refine ⟨String.ofList after, String.toList_inj.1 ?_⟩
    simp [htext]
  · rintro ⟨after, rfl⟩
    exact ⟨after.toList, by simp⟩

end Phrasebook.Frame
