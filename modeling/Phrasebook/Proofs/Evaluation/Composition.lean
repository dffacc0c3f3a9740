import Phrasebook.Proofs.Evaluation.Calls

/-!
# Keys inside other messages

A key that is asked for inside another message finds other keys being expanded below it.  They matter only if one of
them is asked for again, or if they take the room that the key needs: if nothing is refused when the key is evaluated on
its own, it has the same result above all keys that it does not enter (`reference_expands_as_on_its_own`).

The two evaluations run side by side, in contexts of which one is `Above` the other.
-/

namespace Phrasebook

namespace Context

/-- In `d` the keys `below` are being expanded below those of `c`, and there is room for all of them. -/
structure Above (below : List String) (c d : Context) : Prop where
  replacements : d.replacements = c.replacements
  stack : d.stack = below ++ c.stack
  ceiling : below.length + c.maxDepth ≤ d.maxDepth

variable {below : List String} {c d : Context}

theorem Above.of_agree (h : Above below c d) {c' d' : Context} (hc : c'.Agree c) (hd : d'.Agree d) :
    Above below c' d' := by
  constructor
  · rw [hd.replacements, hc.replacements]
    exact h.replacements
  · rw [hd.stack, hc.stack]
    exact h.stack
  · rw [hd.maxDepth, hc.maxDepth]
    exact h.ceiling

theorem Above.push (h : Above below c d) (key : String) : Above below (c.push key) (d.push key) := by
  refine ⟨h.replacements, ?_, h.ceiling⟩
  show d.stack ++ [key] = below ++ (c.stack ++ [key])
  rw [h.stack, List.append_assoc]

/-- What can be entered can be entered above keys that are others. -/
theorem Above.refusal?_eq_none (h : Above below c d) {key : String} (hkey : key ∉ below)
    (hc : c.refusal? key = none) : d.refusal? key = none := by
  obtain ⟨hnew, hroom⟩ := Context.refusal?_eq_none.1 hc
  have hceiling := h.ceiling
  rw [Context.refusal?_eq_none, h.stack, List.length_append]
  exact ⟨by simp [hkey, hnew], by omega⟩

theorem Agree.symm (h : c.Agree d) : d.Agree c := ⟨h.replacements.symm, h.maxDepth.symm, h.stack.symm⟩

end Context

namespace Evaluation

/-- Nothing was refused, and none of these keys was entered. -/
structure Undisturbed (below : List String) (notices : List Notice) : Prop where
  refused : ∀ key reason, .refused key reason ∉ notices
  entered : ∀ stack key, .entered (stack ++ [key]) ∈ notices → key ∉ below

variable {tree : Tree} {below : List String}

/-! ### Side by side -/

private theorem subset_notices_expandSegments {f : String → Context → Outcome}
    (hkeep : ∀ key c, c.notices ⊆ (f key c).2.notices) (segments : List Segment) (c : Context) :
    c.notices ⊆ (expandSegments f segments c).2.notices :=
  expandSegments_preserves (P := fun d => c.notices ⊆ d.notices)
    (fun key d hd => List.Subset.trans hd (hkeep key d)) segments (List.Subset.refl _)

/-- Two evaluations of the segments of a text have one result if those of its references do, as far as they go. -/
private theorem fst_expandSegments_of_above {f : String → Context → Outcome} (hf : ∀ key c, (f key c).2.Agree c)
    (hkeep : ∀ key c, c.notices ⊆ (f key c).2.notices) {c d : Context} {notices : List Notice}
    (step : ∀ key x y, x.Agree c → y.Agree d → (f key x).2.notices ⊆ notices → (f key y).1 = (f key x).1)
    (segments : List Segment) {x y : Context} (hx : x.Agree c) (hy : y.Agree d)
    (hnotices : (expandSegments f segments x).2.notices ⊆ notices) :
    (expandSegments f segments y).1 = (expandSegments f segments x).1 := by
  induction segments generalizing x y with
  | nil => rfl
  | cons segment rest ih =>
    cases htarget : Lint.target? segment with
    | none =>
      rw [expandSegments_of_target?_none f rest x htarget] at hnotices ⊢
      rw [expandSegments_of_target?_none f rest y htarget]
      exact congrArg (Except.map _) (ih hx hy hnotices)
    | some key =>
      cases hresult : (f key x).1 with
      | error error =>
        rw [expandSegments_of_error rest htarget hresult] at hnotices ⊢
        have hsame := step key x y hx hy hnotices
        rw [expandSegments_of_error rest htarget (hsame.trans hresult)]
        exact hsame
      | ok expanded =>
        rw [expandSegments_of_ok rest htarget hresult] at hnotices ⊢
        have hhere := List.Subset.trans (subset_notices_expandSegments hkeep rest (f key x).2) hnotices
        have hsame := step key x y hx hy hhere
        rw [expandSegments_of_ok rest htarget (hsame.trans hresult)]
        exact congrArg (Except.map _) (ih ((hf key x).trans hx) ((hf key y).trans hy) hnotices)

/-- Induction on the evaluation in the lower context: nothing that it asks for is refused in the upper one. -/
private theorem fst_evalKey_of_above {key : String} {c d : Context} (h : c.Above below d)
    (hnotices : Undisturbed below (evalKey tree key c).2.notices) :
    (evalKey tree key d).1 = (evalKey tree key c).1 := by
  induction key, c using key_induction tree generalizing d with
  | refused key c reason hrefusal =>
    rw [evalKey_of_refusal? tree hrefusal] at hnotices
    exact absurd List.mem_cons_self (hnotices.refused key reason)
  | missing key c hrefusal hraw =>
    have hentered : .entered (c.stack ++ [key]) ∈ (evalKey tree key c).2.notices := by
      rw [evalKey_of_raw?_none hrefusal hraw]
      exact List.mem_cons_of_mem _ List.mem_cons_self
    have hrefusal' := h.refusal?_eq_none (hnotices.entered _ _ hentered) hrefusal
    rw [evalKey_of_raw?_none hrefusal hraw, evalKey_of_raw?_none hrefusal' hraw]
  | entered key c template hrefusal hraw ih =>
    rw [evalKey_of_raw? hrefusal hraw] at hnotices ⊢
    have hpush := h.push key
    have hsame := hpush.replacements
    cases hprepare : prepare (c.push key).replacements template with
    | error error =>
      rw [evalTemplate_of_error tree hprepare] at hnotices ⊢
      have hrefusal' := h.refusal?_eq_none (hnotices.entered _ _ List.mem_cons_self) hrefusal
      rw [evalKey_of_raw? hrefusal' hraw, evalTemplate_of_error tree (hsame ▸ hprepare)]
    | ok text =>
      rw [evalTemplate_of_ok tree hprepare] at hnotices ⊢
      have hentered : .entered (c.stack ++ [key]) ∈ (expandReferences tree text (c.push key)).2.notices :=
        subset_notices_expandSegments (subset_notices_evalKey tree) _ _ List.mem_cons_self
      have hrefusal' := h.refusal?_eq_none (hnotices.entered _ _ hentered) hrefusal
      rw [evalKey_of_raw? hrefusal' hraw, evalTemplate_of_ok tree (hsame ▸ hprepare)]
      refine fst_expandSegments_of_above (agree_evalKey tree) (subset_notices_evalKey tree) ?_ _
        (Context.Agree.refl _) (Context.Agree.refl _) (List.Subset.refl _)
      intro target x y hx hy hsub
      refine ih target x hx (hpush.of_agree hx hy) ⟨fun other reason hmem => ?_, fun stack other hmem => ?_⟩
      · exact hnotices.refused other reason (hsub hmem)
      · exact hnotices.entered stack other (hsub hmem)

/-! ### References in a text -/

/-- The notices before an evaluation do not matter for its result. -/
private theorem fst_evalKey_of_agree {key : String} {c d : Context} (h : c.Agree d) :
    (evalKey tree key c).1 = (evalKey tree key d).1 := by
  induction key, c using key_induction tree generalizing d with
  | refused key c reason hrefusal =>
    rw [evalKey_of_refusal? tree hrefusal, evalKey_of_refusal? tree (h.refusal? key ▸ hrefusal)]
  | missing key c hrefusal hraw =>
    rw [evalKey_of_raw?_none hrefusal hraw, evalKey_of_raw?_none (h.refusal? key ▸ hrefusal) hraw]
  | entered key c template hrefusal hraw ih =>
    have hpush : (c.push key).Agree (d.push key) :=
      ⟨h.replacements, h.maxDepth, congrArg (· ++ [key]) h.stack⟩
    rw [evalKey_of_raw? hrefusal hraw, evalKey_of_raw? (h.refusal? key ▸ hrefusal) hraw]
    let R (x y : Context) : Prop := x.Agree (c.push key) ∧ y.Agree (d.push key)
    have hsame : ∀ {x y}, R x y → x.Agree y := by
      rintro x y ⟨hx, hy⟩
      exact hx.trans (hpush.trans hy.symm)
    refine (evalTemplateWith_rel (R := R) ?_ (fun hxy => (hsame hxy).replacements) template ⟨.refl _, .refl _⟩).1
    rintro target x y ⟨hx, hy⟩
    exact ⟨ih target x hx (hsame ⟨hx, hy⟩), (agree_evalKey tree target x).trans hx,
      (agree_evalKey tree target y).trans hy⟩

private theorem fst_expandSegments_of_agree (segments : List Segment) {c d : Context} (h : c.Agree d) :
    (expandSegments (evalKey tree) segments c).1 = (expandSegments (evalKey tree) segments d).1 := by
  refine (expandSegments_rel (R := Context.Agree) ?_ segments h).1
  intro key x y hxy
  refine ⟨fst_evalKey_of_agree hxy, ?_⟩
  exact (agree_evalKey tree key x).trans (hxy.trans (agree_evalKey tree key y).symm)

private theorem map_append (expanded : String) (x y : Except EvalError String) :
    (do let first ← x
        let last ← y
        return first ++ last).map (expanded ++ ·) = do
      let first ← x.map (expanded ++ ·)
      let last ← y
      return first ++ last := by
  cases x with
  | error error => rfl
  | ok first =>
    cases y with
    | error error => rfl
    | ok last => simp [bind, Except.bind, pure, Except.pure, Except.map, String.append_assoc]

/-- Segments are expanded one after the other, in contexts that do not differ in what matters. -/
theorem fst_expandSegments_append (xs ys : List Segment) (c : Context) :
    (expandSegments (evalKey tree) (xs ++ ys) c).1 = do
      let first ← (expandSegments (evalKey tree) xs c).1
      let last ← (expandSegments (evalKey tree) ys c).1
      return first ++ last := by
  induction xs generalizing c with
  | nil =>
    rw [List.nil_append, expandSegments]
    cases (expandSegments (evalKey tree) ys c).1 with
    | error error => rfl
    | ok last => simp [bind, Except.bind, pure, Except.pure]
  | cons segment xs ih =>
    rw [List.cons_append]
    cases htarget : Lint.target? segment with
    | none =>
      rw [expandSegments_of_target?_none _ _ c htarget, expandSegments_of_target?_none _ xs c htarget, ih]
      exact map_append ..
    | some key =>
      cases hresult : (evalKey tree key c).1 with
      | error error =>
        rw [expandSegments_of_error _ htarget hresult, expandSegments_of_error xs htarget hresult, hresult]
        rfl
      | ok expanded =>
        rw [expandSegments_of_ok _ htarget hresult, expandSegments_of_ok xs htarget hresult, ih]
        rw [fst_expandSegments_of_agree ys (agree_evalKey tree key c)]
        exact map_append ..

private theorem fst_expandSegments_reference (raw key : String) (rest : List Segment) (c : Context) :
    (expandSegments (evalKey tree) (.directive raw (.reference key) :: rest) c).1 = do
      let here ← (evalKey tree key c).1
      let last ← (expandSegments (evalKey tree) rest c).1
      return here ++ last := by
  cases hresult : (evalKey tree key c).1 with
  | error error =>
    rw [expandSegments_of_error rest rfl hresult, hresult]
    rfl
  | ok expanded =>
    rw [expandSegments_of_ok rest rfl hresult, fst_expandSegments_of_agree rest (agree_evalKey tree key c)]
    cases (expandSegments (evalKey tree) rest c).1 with
    | error error => rfl
    | ok last => rfl

/-- If nothing is refused when a key is evaluated on its own under a ceiling, it has the same result wherever none of
the keys it enters is being expanded and the room is as large.  So a reference to the key in a text is replaced by what
the key gives on its own, between what the segments before and behind it give. -/
theorem reference_expands_as_on_its_own {tree : Tree} {key : String} {depth : Nat} {c : Context}
    (hrefused : ∀ other reason,
      .refused other reason ∉ (evalKey tree key (.fresh c.replacements depth)).2.notices)
    (hentered : ∀ stack other,
      .entered (stack ++ [other]) ∈ (evalKey tree key (.fresh c.replacements depth)).2.notices → other ∉ c.stack)
    (hdepth : c.stack.length + depth ≤ c.maxDepth) :
    (evalKey tree key c).1 = (evalKey tree key (.fresh c.replacements depth)).1 ∧
      ∀ text pre raw post, Template.references text = pre ++ .directive raw (.reference key) :: post →
        (expandReferences tree text c).1 = do
          let first ← (expandSegments (evalKey tree) pre c).1
          let here ← (evalKey tree key (.fresh c.replacements depth)).1
          let last ← (expandSegments (evalKey tree) post c).1
          return first ++ (here ++ last) := by
  have habove : (Context.fresh c.replacements depth).Above c.stack c := ⟨rfl, (List.append_nil _).symm, hdepth⟩
  have hsame : (evalKey tree key c).1 = (evalKey tree key (.fresh c.replacements depth)).1 :=
    fst_evalKey_of_above habove ⟨hrefused, hentered⟩
  refine ⟨hsame, fun text pre raw post hscan => ?_⟩
  unfold expandReferences
  rw [hscan, fst_expandSegments_append, fst_expandSegments_reference, hsame]
  simp only [bind_assoc, pure_bind]

/-- A key that refers to two others, one of them twice, while a third key is being expanded. -/
theorem reference_expands_as_on_its_own_in_another :
    let tree : Tree := .object [("a", .scalar "$t(b), $t(c)"), ("b", .scalar "{{n}} $t(c)"), ("c", .scalar "x")]
    let c : Context := { replacements := .ofList [("n", .int 2)], maxDepth := 4, stack := ["k"] }
    let alone := evalKey tree "a" (.fresh c.replacements 3)
    (∀ other reason, .refused other reason ∉ alone.2.notices) ∧
      (∀ stack other, .entered (stack ++ [other]) ∈ alone.2.notices → other ∉ c.stack) ∧
      c.stack.length + 3 ≤ c.maxDepth ∧ (evalKey tree "a" c).1 = alone.1 := by
  intro tree c alone
  have hnotices : alone.2.notices = [.entered ["a", "c"], .entered ["a", "b", "c"], .entered ["a", "b"],
      .entered ["a"]] := by decide +kernel
  have hrefused : ∀ other reason, .refused other reason ∉ alone.2.notices := by simp [hnotices]
  have hentered : ∀ stack other, .entered (stack ++ [other]) ∈ alone.2.notices → other ∉ c.stack := by
    intro stack other hmem hother
    obtain rfl : other = "k" := List.mem_singleton.1 hother
    have hne : ∀ keys : List String, "k" ∉ keys → stack ++ ["k"] ≠ keys := by
      rintro keys hk rfl
      simp at hk
    simp [hnotices, hne] at hmem
  have hdepth : c.stack.length + 3 ≤ c.maxDepth := by decide
  exact ⟨hrefused, hentered, hdepth, (reference_expands_as_on_its_own hrefused hentered hdepth).1⟩

end Evaluation

end Phrasebook
