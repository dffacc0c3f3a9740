import Phrasebook.Proofs.Evaluation.Ceiling
import Phrasebook.Proofs.Evaluation.Rules

/-!
# Contexts in use

A context may be used in any way: keys are entered and left, and keys, templates and texts of any trees are evaluated,
in any order.  Whatever is done, the keys being expanded are different, and there are never more of them than the
ceiling allows (`Context.Bounded`, kept by every rule of evaluation: `Yields.bounded`).  This holds on the way, too:
every entry is noted and no notice is dropped, so the notices tell of every context that an evaluation visits.

While one key is evaluated with nothing being expanded before, all keys but the one entered last have messages, so there
is at most one more than there are leaves (`stack_stays_bounded`).
-/

namespace Phrasebook

namespace Context

/-- The keys being expanded are different and no more than the ceiling, and so they were whenever a key was entered. -/
structure Bounded (limit : Nat) (c : Context) : Prop where
  ceiling : c.maxDepth = limit
  nodup : c.stack.Nodup
  length_le : c.stack.length ≤ limit
  entries : ∀ stack, .entered stack ∈ c.notices → stack.Nodup ∧ stack.length ≤ limit

theorem bounded_fresh (replacements : Replacements) (maxDepth : Nat) :
    (fresh replacements maxDepth).Bounded maxDepth := by
  refine ⟨rfl, List.nodup_nil, Nat.zero_le _, fun stack h => ?_⟩
  cases h

variable {limit : Nat} {c : Context}

/-- Only entries say something of the keys being expanded. -/
theorem Bounded.note (h : c.Bounded limit) {notice : Notice} (hnotice : ∀ stack, notice ≠ .entered stack) :
    (c.note notice).Bounded limit := by
  refine ⟨h.ceiling, h.nodup, h.length_le, fun stack hmem => ?_⟩
  rcases List.mem_cons.1 hmem with heq | hmem
  · exact absurd heq.symm (hnotice stack)
  · exact h.entries stack hmem

theorem Bounded.enter (h : c.Bounded limit) {key : String} {d : Context} (henter : c.enter key = .ok d) :
    d.Bounded limit := by
  obtain ⟨hrefusal, rfl⟩ := enter_eq_ok.1 henter
  obtain ⟨hkey, hdepth⟩ := refusal?_eq_none.1 hrefusal
  have hnodup : (c.stack ++ [key]).Nodup := nodup_append_singleton.2 ⟨hkey, h.nodup⟩
  have hlength : (c.stack ++ [key]).length ≤ limit := by
    rw [List.length_append, List.length_singleton, ← h.ceiling]
    omega
  refine ⟨h.ceiling, hnodup, hlength, fun stack hmem => ?_⟩
  rcases List.mem_cons.1 hmem with heq | hmem
  · obtain rfl : stack = c.stack ++ [key] := Notice.entered.inj heq
    exact ⟨hnodup, hlength⟩
  · exact h.entries stack hmem

theorem Bounded.leave (h : c.Bounded limit) : c.leave.Bounded limit := by
  have hlength : c.stack.dropLast.length ≤ limit := by
    have := h.length_le
    rw [List.length_dropLast]
    omega
  exact ⟨h.ceiling, h.nodup.sublist (List.dropLast_sublist _), hlength, h.entries⟩

end Context

namespace Evaluation

variable {limit : Nat} {c : Context}

/-- Every rule keeps the keys being expanded within their bounds. -/
theorem Yields.bounded {tree : Tree} {task : Task} {outcome : Outcome} (h : Yields tree task c outcome)
    (hc : c.Bounded limit) : outcome.2.Bounded limit := by
  induction h with
  | refused => exact hc.note (by simp)
  | missing h => exact ((hc.enter h).note (by simp)).leave
  | entered h _ _ ih => exact (ih (hc.enter h)).leave
  | unprepared | nil => exact hc
  | prepared _ _ ih | text _ _ ih | failing _ _ ih => exact ih hc
  | reference _ _ _ ihfirst ih => exact ih (ihfirst hc)

theorem Task.bounded_outcome (hc : c.Bounded limit) (tree : Tree) (task : Task) :
    (task.outcome tree c).2.Bounded limit :=
  (yields_iff.2 rfl).bounded hc

theorem Visits.nodup_and_length_le {tree : Tree} {task : Task} {d : Context} (h : Visits tree task c d)
    (hc : c.Bounded limit) : d.stack.Nodup ∧ d.stack.length ≤ limit := by
  rcases h.stack_eq_or_noted with hstack | hnoted
  · rw [hstack]
    exact ⟨hc.nodup, hc.length_le⟩
  · exact (task.bounded_outcome hc tree).entries d.stack hnoted

/-! ### Runs of operations -/

/-- What can be done with a context. -/
inductive Operation where
  | enter (key : String)
  | leave
  | evalKey (tree : Tree) (key : String)
  | evalTemplate (tree : Tree) (template : String)
  | expandReferences (tree : Tree) (text : String)

/-- The context after an operation.  A key that is refused leaves it as it is. -/
def Operation.apply (c : Context) : Operation → Context
  | .enter key => (c.enter key).toOption.getD c
  | .leave => c.leave
  | .evalKey tree key => (Evaluation.evalKey tree key c).2
  | .evalTemplate tree template => (Evaluation.evalTemplate tree template c).2
  | .expandReferences tree text => (Evaluation.expandReferences tree text c).2

/-- The context after a run. -/
def Operation.run (c : Context) (operations : List Operation) : Context :=
  operations.foldl Operation.apply c

theorem Operation.apply_enter_of_error {key : String} {reason : Refusal} (h : c.enter key = .error reason) :
    (Operation.enter key).apply c = c := by
  show (c.enter key).toOption.getD c = c
  rw [h]
  rfl

theorem Operation.apply_enter_of_ok {key : String} {d : Context} (h : c.enter key = .ok d) :
    (Operation.enter key).apply c = d := by
  show (c.enter key).toOption.getD c = d
  rw [h]
  rfl

theorem Operation.bounded_apply (hc : c.Bounded limit) (operation : Operation) :
    (operation.apply c).Bounded limit := by
  cases operation with
  | enter key =>
    cases henter : c.enter key with
    | ok d => exact apply_enter_of_ok henter ▸ hc.enter henter
    | error reason => exact (apply_enter_of_error henter).symm ▸ hc
  | leave => exact hc.leave
  | evalKey tree key => exact (Task.key key).bounded_outcome hc tree
  | evalTemplate tree template => exact (Task.template template).bounded_outcome hc tree
  | expandReferences tree text => exact (Task.segments (Template.references text)).bounded_outcome hc tree

theorem Operation.bounded_run (hc : c.Bounded limit) (operations : List Operation) :
    (Operation.run c operations).Bounded limit := by
  induction operations generalizing c with
  | nil => exact hc
  | cons operation operations ih => exact ih (bounded_apply hc operation)

/-! ### The evaluation of a key -/

variable {tree : Tree} {key : String} {replacements : Replacements} {maxDepth : Nat} {stack : List String}

/-- All keys but the one that is entered have messages. -/
private theorem length_le_of_entered
    (h : .entered stack ∈ (evalKey tree key (.fresh replacements maxDepth)).2.notices) :
    stack.length ≤ tree.leafKeys.length + 1 := by
  rcases noted_of_mem_notices h with h | ⟨call, hleads, hnoted⟩
  · cases h
  · cases hnoted
    have hstack : tree.Stacked call.stack := hleads.stacked (Tree.Stacked.nil tree)
    have hlength := Tree.length_le_length_leafKeys hstack.nodup hstack.isSome
    rw [List.length_append, List.length_singleton]
    omega

/-- However a context is used, the keys being expanded stay different and no more than the ceiling: at the end, at
every entry, and in every context that a further evaluation visits.  A key that is not being expanded is entered below
the ceiling; a key that is refused changes nothing, and its evaluation only notes the refusal.  The evaluation of a key
comes to an end in every context, and if nothing is being expanded at its beginning, it never expands more keys at a
time than there are leaves, and one, neither at an entry nor in any context that it visits. -/
theorem stack_stays_bounded (replacements : Replacements) (maxDepth : Nat) :
    (∀ operations,
      let c := Operation.run (.fresh replacements maxDepth) operations
      c.stack.Nodup ∧ c.stack.length ≤ maxDepth ∧
        (∀ stack, .entered stack ∈ c.notices → stack.Nodup ∧ stack.length ≤ maxDepth) ∧
        (∀ tree task d, Visits tree task c d → d.stack.Nodup ∧ d.stack.length ≤ maxDepth) ∧
        (∀ key, key ∉ c.stack → c.stack.length < maxDepth →
          ((Operation.enter key).apply c).stack = c.stack ++ [key]) ∧
        ∀ key reason, c.enter key = .error reason → (Operation.enter key).apply c = c ∧
          ∀ tree, evalKey tree key c = (.ok "", c.note (.refused key reason))) ∧
      ∀ tree key,
        (∀ c outcome, Yields tree (.key key) c outcome ↔ outcome = evalKey tree key c) ∧
        (∀ stack, .entered stack ∈ (evalKey tree key (.fresh replacements maxDepth)).2.notices →
          stack.length ≤ min maxDepth (tree.leafKeys.length + 1)) ∧
        ∀ d, Visits tree (.key key) (.fresh replacements maxDepth) d →
          d.stack.length ≤ min maxDepth (tree.leafKeys.length + 1) := by
  have hfresh := Context.bounded_fresh replacements maxDepth
  constructor
  · intro operations c
    have hc : c.Bounded maxDepth := Operation.bounded_run hfresh operations
    refine ⟨hc.nodup, hc.length_le, hc.entries, fun tree task d hvisits => hvisits.nodup_and_length_le hc,
      fun key hkey hdepth => ?_, fun key reason => ?_⟩
    · have hrefusal : c.refusal? key = none := Context.refusal?_eq_none.2 ⟨hkey, hc.ceiling.symm ▸ hdepth⟩
      rw [Operation.apply_enter_of_ok (Context.enter_eq_ok.2 ⟨hrefusal, rfl⟩)]
      rfl
    · intro h
      exact ⟨Operation.apply_enter_of_error h, fun tree => evalKey_of_refusal? tree (Context.enter_eq_error.1 h)⟩
  · intro tree key
    have hafter := (Task.key key).bounded_outcome hfresh tree
    have hentries : ∀ stack, .entered stack ∈ (evalKey tree key (.fresh replacements maxDepth)).2.notices →
        stack.length ≤ min maxDepth (tree.leafKeys.length + 1) := by
      intro stack h
      exact Nat.le_min.2 ⟨(hafter.entries stack h).2, length_le_of_entered h⟩
    refine ⟨fun c outcome => yields_iff, hentries, fun d hvisits => ?_⟩
    rcases hvisits.stack_eq_or_noted with hstack | hnoted
    · rw [hstack]
      exact Nat.zero_le _
    · exact hentries d.stack hnoted

end Evaluation

end Phrasebook
