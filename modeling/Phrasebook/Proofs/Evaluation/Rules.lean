import Phrasebook.Proofs.Evaluation.Stack

/-!
# The rules of evaluation

`Yields` says what an evaluation gives, by rules that know no bound: a key leads to its template, a template to the
segments of its prepared text, a reference among them to a key again.  References may lead anywhere, so it is not plain
that the rules come to an end.  They do: every task has an outcome, and it is the one that the functions compute
(`yields_iff`).

`Visits` lists the contexts on the way to the outcome.  The keys being expanded in any of them are those of the
beginning, or they were noted when the last of them was entered, and the notice is still there in the end
(`Visits.stack_eq_or_noted`).
-/

namespace Phrasebook

namespace Context

theorem enter_eq_error {c : Context} {key : String} {reason : Refusal} :
    c.enter key = .error reason ↔ c.refusal? key = some reason := by
  unfold enter
  cases c.refusal? key <;> simp

theorem enter_eq_ok {c d : Context} {key : String} :
    c.enter key = .ok d ↔ c.refusal? key = none ∧ d = c.push key := by
  unfold enter push
  cases c.refusal? key <;> simp [eq_comm]

end Context

namespace Evaluation

/-- What can be evaluated. -/
inductive Task where
  | key (key : String)
  | template (template : String)
  | segments (segments : List Segment)

/-- What the evaluation of a task in a context gives. -/
inductive Yields (tree : Tree) : Task → Context → Outcome → Prop where
  | refused {key : String} {c : Context} {reason : Refusal} (h : c.enter key = .error reason) :
      Yields tree (.key key) c (.ok "", c.note (.refused key reason))
  | missing {key : String} {c entered : Context} (h : c.enter key = .ok entered) (raw : tree.raw? key = none) :
      Yields tree (.key key) c (.ok "", (entered.note (.missing key)).leave)
  | entered {key template : String} {c entered after : Context} {result : Except EvalError String}
      (h : c.enter key = .ok entered) (raw : tree.raw? key = some template)
      (inner : Yields tree (.template template) entered (result, after)) :
      Yields tree (.key key) c (result, after.leave)
  | unprepared {template : String} {c : Context} {error : EvalError}
      (h : prepare c.replacements template = .error error) :
      Yields tree (.template template) c (.error error, c)
  | prepared {template text : String} {c : Context} {outcome : Outcome}
      (h : prepare c.replacements template = .ok text)
      (inner : Yields tree (.segments (Template.references text)) c outcome) :
      Yields tree (.template template) c outcome
  | nil {c : Context} : Yields tree (.segments []) c (.ok "", c)
  | text {segment : Segment} {rest : List Segment} {c after : Context} {more : Except EvalError String}
      (h : Lint.target? segment = none) (inner : Yields tree (.segments rest) c (more, after)) :
      Yields tree (.segments (segment :: rest)) c (more.map (segment.source ++ ·), after)
  | failing {segment : Segment} {rest : List Segment} {key : String} {c after : Context} {error : EvalError}
      (h : Lint.target? segment = some key) (inner : Yields tree (.key key) c (.error error, after)) :
      Yields tree (.segments (segment :: rest)) c (.error error, after)
  | reference {segment : Segment} {rest : List Segment} {key expanded : String} {c between after : Context}
      {more : Except EvalError String} (h : Lint.target? segment = some key)
      (first : Yields tree (.key key) c (.ok expanded, between))
      (inner : Yields tree (.segments rest) between (more, after)) :
      Yields tree (.segments (segment :: rest)) c (more.map (expanded ++ ·), after)

/-- The outcome that is computed. -/
def Task.outcome (tree : Tree) : Task → Context → Outcome
  | .key name, c => evalKey tree name c
  | .template text, c => evalTemplate tree text c
  | .segments pieces, c => expandSegments (evalKey tree) pieces c

variable {tree : Tree}

/-- The rules give nothing else than what is computed. -/
theorem Yields.eq_outcome {task : Task} {c : Context} {outcome : Outcome} (h : Yields tree task c outcome) :
    outcome = task.outcome tree c := by
  induction h with
  | refused h => exact (evalKey_of_refusal? tree (Context.enter_eq_error.1 h)).symm
  | missing h raw =>
    obtain ⟨hrefusal, rfl⟩ := Context.enter_eq_ok.1 h
    exact (evalKey_of_raw?_none hrefusal raw).symm
  | @entered key template c _ after result h raw _ ih =>
    obtain ⟨hrefusal, rfl⟩ := Context.enter_eq_ok.1 h
    have hinner : (result, after) = evalTemplate tree template (c.push key) := ih
    show (result, after.leave) = evalKey tree key c
    rw [evalKey_of_raw? hrefusal raw, ← hinner]
  | unprepared h => exact (evalTemplate_of_error tree h).symm
  | prepared h _ ih => exact ih.trans (evalTemplate_of_ok tree h).symm
  | nil => rfl
  | @text segment rest c after more h _ ih =>
    have hinner : (more, after) = expandSegments (evalKey tree) rest c := ih
    show _ = expandSegments (evalKey tree) (segment :: rest) c
    rw [expandSegments_of_target?_none _ rest c h, ← hinner]
  | @failing segment rest key c after error h _ ih =>
    have hkey : (.error error, after) = evalKey tree key c := ih
    have herror : (evalKey tree key c).1 = .error error := by rw [← hkey]
    show _ = expandSegments (evalKey tree) (segment :: rest) c
    rw [expandSegments_of_error rest h herror, hkey]
  | @reference segment rest key expanded c between after more h _ _ ihfirst ih =>
    have hkey : (.ok expanded, between) = evalKey tree key c := ihfirst
    have hinner : (more, after) = expandSegments (evalKey tree) rest between := ih
    have hok : (evalKey tree key c).1 = .ok expanded := by rw [← hkey]
    show _ = expandSegments (evalKey tree) (segment :: rest) c
    rw [expandSegments_of_ok rest h hok, ← hkey, ← hinner]

/-- Segments come to an end if their references do. -/
private theorem yields_segments {c : Context}
    (h : ∀ target d, d.Agree c → Yields tree (.key target) d (evalKey tree target d)) (segments : List Segment) :
    Yields tree (.segments segments) c (expandSegments (evalKey tree) segments c) := by
  suffices hall : ∀ d, d.Agree c → Yields tree (.segments segments) d (expandSegments (evalKey tree) segments d) from
    hall c (Context.Agree.refl c)
  induction segments with
  | nil => exact fun d _ => .nil
  | cons segment rest ih =>
    intro d hd
    cases htarget : Lint.target? segment with
    | none =>
      rw [expandSegments_of_target?_none _ rest d htarget]
      exact .text htarget (ih d hd)
    | some key =>
      have hkey := h key d hd
      have hafter : (evalKey tree key d).2.Agree c := (agree_evalKey tree key d).trans hd
      rcases hresult : evalKey tree key d with ⟨error | expanded, after⟩
      · rw [hresult] at hkey
        rw [expandSegments_of_error rest htarget (congrArg Prod.fst hresult), hresult]
        exact .failing htarget hkey
      · rw [hresult] at hkey hafter
        rw [expandSegments_of_ok rest htarget (congrArg Prod.fst hresult), hresult]
        exact .reference htarget hkey (ih after hafter)

private theorem yields_template {c : Context}
    (h : ∀ target d, d.Agree c → Yields tree (.key target) d (evalKey tree target d)) (template : String) :
    Yields tree (.template template) c (evalTemplate tree template c) := by
  cases hprepare : prepare c.replacements template with
  | error error =>
    rw [evalTemplate_of_error tree hprepare]
    exact .unprepared hprepare
  | ok text =>
    rw [evalTemplate_of_ok tree hprepare]
    exact .prepared hprepare (yields_segments h _)

/-- Each key that is entered leaves room for fewer. -/
private theorem yields_evalKey (key : String) (c : Context) : Yields tree (.key key) c (evalKey tree key c) := by
  induction key, c using key_induction tree with
  | refused key c reason hrefusal =>
    rw [evalKey_of_refusal? tree hrefusal]
    exact .refused (Context.enter_eq_error.2 hrefusal)
  | missing key c hrefusal hraw =>
    rw [evalKey_of_raw?_none hrefusal hraw]
    exact .missing (Context.enter_eq_ok.2 ⟨hrefusal, rfl⟩) hraw
  | entered key c template hrefusal hraw ih =>
    rw [evalKey_of_raw? hrefusal hraw]
    exact .entered (Context.enter_eq_ok.2 ⟨hrefusal, rfl⟩) hraw (yields_template ih template)

/-- The rules come to an end for every task, with the outcome that is computed. -/
theorem yields_iff {task : Task} {c : Context} {outcome : Outcome} :
    Yields tree task c outcome ↔ outcome = task.outcome tree c := by
  constructor
  · exact Yields.eq_outcome
  · rintro rfl
    cases task with
    | key key => exact yields_evalKey key c
    | template template => exact yields_template (fun target d _ => yields_evalKey target d) template
    | segments segments => exact yields_segments (fun target d _ => yields_evalKey target d) segments

/-! ### The contexts on the way -/

/-- The evaluation of a task in a context gets to another context: at its beginning, at its end, when a key is entered,
or in a part of it. -/
inductive Visits (tree : Tree) : Task → Context → Context → Prop where
  | start {task : Task} {c : Context} : Visits tree task c c
  | finish {task : Task} {c : Context} {outcome : Outcome} (h : Yields tree task c outcome) :
      Visits tree task c outcome.2
  | enter {key : String} {c entered : Context} (h : c.enter key = .ok entered) : Visits tree (.key key) c entered
  | entered {key template : String} {c entered d : Context} (h : c.enter key = .ok entered)
      (raw : tree.raw? key = some template) (inner : Visits tree (.template template) entered d) :
      Visits tree (.key key) c d
  | prepared {template text : String} {c d : Context} (h : prepare c.replacements template = .ok text)
      (inner : Visits tree (.segments (Template.references text)) c d) : Visits tree (.template template) c d
  | text {segment : Segment} {rest : List Segment} {c d : Context} (h : Lint.target? segment = none)
      (inner : Visits tree (.segments rest) c d) : Visits tree (.segments (segment :: rest)) c d
  | first {segment : Segment} {rest : List Segment} {key : String} {c d : Context}
      (h : Lint.target? segment = some key) (inner : Visits tree (.key key) c d) :
      Visits tree (.segments (segment :: rest)) c d
  | reference {segment : Segment} {rest : List Segment} {key expanded : String} {c between d : Context}
      (h : Lint.target? segment = some key) (first : Yields tree (.key key) c (.ok expanded, between))
      (inner : Visits tree (.segments rest) between d) : Visits tree (.segments (segment :: rest)) c d

/-- No notice is dropped. -/
theorem Yields.subset_notices {task : Task} {c : Context} {outcome : Outcome} (h : Yields tree task c outcome) :
    c.notices ⊆ outcome.2.notices := by
  induction h with
  | refused => exact List.subset_cons_self _ _
  | missing h =>
    obtain ⟨-, rfl⟩ := Context.enter_eq_ok.1 h
    exact List.Subset.trans (List.subset_cons_self _ _) (List.subset_cons_self _ _)
  | entered h _ _ ih =>
    obtain ⟨-, rfl⟩ := Context.enter_eq_ok.1 h
    exact List.Subset.trans (List.subset_cons_self _ _) ih
  | unprepared | nil => exact List.Subset.refl _
  | prepared _ _ ih | text _ _ ih | failing _ _ ih => exact ih
  | reference _ _ _ ihfirst ih => exact List.Subset.trans ihfirst ih

theorem Task.subset_notices_outcome (tree : Tree) (task : Task) (c : Context) :
    c.notices ⊆ (task.outcome tree c).2.notices :=
  (yields_iff.2 rfl).subset_notices

theorem subset_notices_evalKey (tree : Tree) (key : String) (c : Context) :
    c.notices ⊆ (evalKey tree key c).2.notices :=
  (Task.key key).subset_notices_outcome tree c

/-- What is entered is left again. -/
theorem Yields.stack_eq {task : Task} {c : Context} {outcome : Outcome} (h : Yields tree task c outcome) :
    outcome.2.stack = c.stack := by
  rw [h.eq_outcome]
  cases task with
  | key key => exact (agree_evalKey tree key c).stack
  | template template => exact (agree_evalTemplate tree template c).stack
  | segments segments =>
    exact expandSegments_preserves (P := fun d => d.stack = c.stack)
      (fun key d hd => (agree_evalKey tree key d).stack.trans hd) segments rfl

/-- That a key is entered is noted, whether it has a message or not. -/
private theorem subset_notices_of_push {key : String} {c : Context} (h : c.refusal? key = none) :
    (c.push key).notices ⊆ (evalKey tree key c).2.notices := by
  cases hraw : tree.raw? key with
  | none =>
    rw [evalKey_of_raw?_none h hraw]
    exact List.subset_cons_self _ _
  | some template =>
    rw [evalKey_of_raw? h hraw]
    exact (Task.template template).subset_notices_outcome tree (c.push key)

/-- Induction on the way there; what a part of the evaluation notes is noted in the end. -/
theorem Visits.stack_eq_or_noted {task : Task} {c d : Context} (h : Visits tree task c d) :
    d.stack = c.stack ∨ .entered d.stack ∈ (task.outcome tree c).2.notices := by
  induction h with
  | start => exact .inl rfl
  | finish h => exact .inl h.stack_eq
  | enter h =>
    obtain ⟨hrefusal, rfl⟩ := Context.enter_eq_ok.1 h
    exact .inr (subset_notices_of_push hrefusal List.mem_cons_self)
  | @entered key template c _ d h raw _ ih =>
    obtain ⟨hrefusal, rfl⟩ := Context.enter_eq_ok.1 h
    right
    rcases ih with hstack | hnoted
    · rw [hstack]
      exact subset_notices_of_push hrefusal List.mem_cons_self
    · show .entered d.stack ∈ (evalKey tree key c).2.notices
      rw [evalKey_of_raw? hrefusal raw]
      exact hnoted
  | @prepared template text c d h _ ih =>
    show d.stack = c.stack ∨ .entered d.stack ∈ (evalTemplate tree template c).2.notices
    rw [evalTemplate_of_ok tree h]
    exact ih
  | @text segment rest c d h _ ih =>
    show d.stack = c.stack ∨ .entered d.stack ∈ (expandSegments (evalKey tree) (segment :: rest) c).2.notices
    rw [expandSegments_of_target?_none _ rest c h]
    exact ih
  | @first segment rest key c d h _ ih =>
    refine ih.imp_right fun hnoted => ?_
    show .entered d.stack ∈ (expandSegments (evalKey tree) (segment :: rest) c).2.notices
    cases hresult : (evalKey tree key c).1 with
    | error error =>
      rw [expandSegments_of_error rest h hresult]
      exact hnoted
    | ok expanded =>
      rw [expandSegments_of_ok rest h hresult]
      exact (Task.segments rest).subset_notices_outcome tree (evalKey tree key c).2 hnoted
  | @reference segment rest key expanded c between d h first _ ih =>
    have hkey : (.ok expanded, between) = evalKey tree key c := first.eq_outcome
    have hok : (evalKey tree key c).1 = .ok expanded := by rw [← hkey]
    have hstack : between.stack = c.stack := first.stack_eq
    show d.stack = c.stack ∨ .entered d.stack ∈ (expandSegments (evalKey tree) (segment :: rest) c).2.notices
    rw [expandSegments_of_ok rest h hok, ← hkey, ← hstack]
    exact ih

end Evaluation

end Phrasebook
