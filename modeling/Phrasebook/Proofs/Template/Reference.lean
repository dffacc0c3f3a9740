import Phrasebook.Lint
import Phrasebook.Proofs.Template.Frame

/-!
# References in a text

`Template.Mentions` says that a text holds the reference to a key somewhere; `mem_targets_iff` says that these are the
keys that scanning the text for references gives.
-/

namespace Phrasebook

/-- The reference to this key is somewhere in the text. -/
def Template.Mentions (text key : String) : Prop :=
  key ≠ "" ∧ (∀ c ∈ key.toList, c ≠ '(' ∧ c ≠ ')') ∧ ∃ before after, text = before ++ "$t(" ++ key ++ ")" ++ after

namespace Lint

theorem eq_reference_of_target? {segment : Segment} {key : String} (h : target? segment = some key) :
    ∃ raw, segment = .directive raw (.reference key) := by
  unfold target? at h
  split at h
  · exact ⟨_, by rw [Option.some.inj h]⟩
  · cases h

/-- The mark and the opening of a reference do not fit into the rest of another one: there is no parenthesis in its
key. -/
private theorem not_prefix_of_body {body before inner : List Char} (after : List Char)
    (hbody : ∀ c ∈ body, Template.reference.inBody c = true) (hinner : inner ≠ [])
    (h : body ++ [')'] = before ++ inner) : ¬ ['$', 't', '('] <+: inner ++ after := by
  induction body generalizing before with
  | nil =>
    rcases before with _ | ⟨c, before⟩
    · obtain rfl : inner = [')'] := h.symm
      simp
    · simp_all
  | cons c body ih =>
    rcases before with _ | ⟨d, before⟩
    · obtain rfl : inner = c :: body ++ [')'] := h.symm
      rcases body with _ | ⟨x, _ | ⟨y, body⟩⟩
      · simp
      · simp
      · have hy : y ≠ '(' := by
          rintro rfl
          exact absurd (hbody '(' (by simp)) (by decide)
        simp [hy.symm]
    · exact ih (fun c hc => hbody c (List.mem_cons_of_mem _ hc)) (List.cons.inj h).2

/-- No reference begins inside another one. -/
theorem separated_reference : Template.reference.Separated := by
  constructor
  · exact ⟨')', [], rfl, by decide⟩
  · intro body hbody before inner after hbefore hinner h
    rcases before with _ | ⟨a, _ | ⟨b, _ | ⟨c, before⟩⟩⟩
    · exact absurd rfl hbefore
    · obtain rfl : inner = 't' :: '(' :: (body ++ [')']) := (List.cons.inj h).2.symm
      simp [Template.reference]
    · obtain rfl : inner = '(' :: (body ++ [')']) := (List.cons.inj (List.cons.inj h).2).2.symm
      simp [Template.reference]
    · exact not_prefix_of_body after hbody hinner (List.cons.inj (List.cons.inj (List.cons.inj h).2).2).2

private theorem eq_reference_of_writes {directive : Directive} {written : List Char}
    (h : Template.reference.Writes directive written) : ∃ key, directive = .reference key := by
  obtain ⟨body, -, hclassify⟩ := h
  unfold Template.reference at hclassify
  dsimp only at hclassify
  split at hclassify
  · cases hclassify
  · exact ⟨_, (Option.some.inj hclassify).symm⟩

theorem writes_reference_iff {key : String} {written : List Char} :
    Template.reference.Writes (.reference key) written ↔
      key ≠ "" ∧ (∀ c ∈ key.toList, c ≠ '(' ∧ c ≠ ')') ∧ written = "$t(".toList ++ key.toList ++ [')'] := by
  constructor
  · rintro ⟨body, hbody, hclassify⟩
    have hne : body ≠ [] := by
      rintro rfl
      cases hclassify
    obtain rfl : String.ofList body = key := by simpa [Template.reference, hne] using hclassify
    refine ⟨by simpa using hne, ?_, by simp [Template.reference]⟩
    intro c hc
    simpa [Template.reference] using hbody c (by simpa using hc)
  · rintro ⟨hne, hkey, rfl⟩
    refine .intro key.toList (fun c hc => ?_) ?_
    · simpa [Template.reference] using hkey c hc
    · simp [Template.reference, hne]

/-- A reference is found where a key without parentheses stands in the frame of one. -/
theorem directiveAt_references_iff {text before raw : String} {directive : Directive} :
    Frame.DirectiveAt (Template.references text) before raw directive ↔
      (∃ key, raw = "$t(" ++ key ++ ")" ∧ key ≠ "" ∧ (∀ c ∈ key.toList, c ≠ '(' ∧ c ≠ ')') ∧
        directive = .reference key) ∧ ∃ after, text = before ++ raw ++ after := by
  unfold Template.references
  rw [Frame.directiveAt_scan_iff separated_reference]
  refine and_congr_left fun _ => ⟨fun h => ?_, ?_⟩
  · obtain ⟨key, rfl⟩ := eq_reference_of_writes h
    obtain ⟨hne, hkey, hraw⟩ := writes_reference_iff.1 h
    exact ⟨key, String.toList_inj.1 (by simpa using hraw), hne, hkey, rfl⟩
  · rintro ⟨key, rfl, hne, hkey, rfl⟩
    exact writes_reference_iff.2 ⟨hne, hkey, by simp⟩

/-- A reference with nothing around it is the only segment. -/
theorem references_reference {key : String} (hne : key ≠ "") (hkey : ∀ c ∈ key.toList, c ≠ '(' ∧ c ≠ ')') :
    Template.references ("$t(" ++ key ++ ")") = [.directive ("$t(" ++ key ++ ")") (.reference key)] := by
  have hwritten : Template.reference.Writes (.reference key) ("$t(" ++ key ++ ")").toList :=
    writes_reference_iff.2 ⟨hne, hkey, by simp⟩
  have hscan := Frame.scan_append_of_writes separated_reference.closing hwritten []
  rw [List.append_nil, String.ofList_toList] at hscan
  unfold Template.references
  rw [hscan]
  simp [Frame.scan]

private theorem mem_targets_iff_exists_directiveAt {text key : String} :
    key ∈ targets text ↔ ∃ raw before, Frame.DirectiveAt (Template.references text) before raw (.reference key) := by
  unfold targets
  rw [List.mem_filterMap]
  simp only [← Frame.mem_iff_exists_directiveAt]
  constructor
  · rintro ⟨segment, hmem, htarget⟩
    obtain ⟨raw, rfl⟩ := eq_reference_of_target? htarget
    exact ⟨raw, hmem⟩
  · rintro ⟨raw, hmem⟩
    exact ⟨_, hmem, rfl⟩

/-- The targets of a text are the keys whose references are in it. -/
theorem mem_targets_iff {text key : String} : key ∈ targets text ↔ Template.Mentions text key := by
  simp only [mem_targets_iff_exists_directiveAt, directiveAt_references_iff]
  constructor
  · rintro ⟨raw, before, ⟨key', rfl, hne, hkey, heq⟩, after, rfl⟩
    obtain rfl : key = key' := Directive.reference.inj heq
    exact ⟨hne, hkey, before, after, by simp only [String.append_assoc]⟩
  · rintro ⟨hne, hkey, before, after, rfl⟩
    exact ⟨"$t(" ++ key ++ ")", before, ⟨key, rfl, hne, hkey, rfl⟩, after, by simp only [String.append_assoc]⟩

end Lint

end Phrasebook
