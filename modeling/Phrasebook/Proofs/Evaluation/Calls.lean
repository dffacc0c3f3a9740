import Mathlib.Logic.Relation
import Phrasebook.Proofs.Evaluation.Rules

/-!
# Calls

An evaluation asks for keys.  A `Call` is a key together with the keys being expanded when it is asked for, and
`Call.Makes` says which calls a call leads to by itself: those of the references in its prepared template, if the key
can be entered and has a message.

* Every notice of an evaluation is about one of the calls that it makes (`noted_of_mem_notices`).
* If the evaluation succeeds, all the calls are noted (`mem_notices_of_noted`).
-/

namespace Phrasebook

namespace Evaluation

/-- A key that is asked for, and the keys being expanded then. -/
structure Call where
  stack : List String
  key : String

namespace Call

/-- The context of a call, but for the notices; `base` has the replacements and the ceiling. -/
def context (base : Context) (call : Call) : Context :=
  { base with stack := call.stack }

theorem agree_push {base c : Context} {call : Call} (hc : c.Agree (call.context base)) (target : String) :
    (c.push call.key).Agree (context base ⟨call.stack ++ [call.key], target⟩) :=
  ⟨hc.replacements, hc.maxDepth, congrArg (· ++ [call.key]) hc.stack⟩

/-- A call leads to another one: its key is entered, and the prepared template refers to the other key. -/
inductive Makes (tree : Tree) (base : Context) : Call → Call → Prop where
  | intro {call : Call} {template text target : String}
      (enters : (call.context base).refusal? call.key = none)
      (raw : tree.raw? call.key = some template)
      (prepared : prepare base.replacements template = .ok text)
      (refers : target ∈ Lint.targets text) :
      Makes tree base call ⟨call.stack ++ [call.key], target⟩

/-- A call leads to another one by way of any number of calls. -/
def Leads (tree : Tree) (base : Context) : Call → Call → Prop :=
  Relation.ReflTransGen (Makes tree base)

/-- What is noted of a call. -/
inductive Noted (tree : Tree) (base : Context) (call : Call) : Notice → Prop where
  | refused {reason : Refusal} (h : (call.context base).refusal? call.key = some reason) :
      Noted tree base call (.refused call.key reason)
  | entered (h : (call.context base).refusal? call.key = none) :
      Noted tree base call (.entered (call.stack ++ [call.key]))
  | missing (h : (call.context base).refusal? call.key = none) (raw : tree.raw? call.key = none) :
      Noted tree base call (.missing call.key)

end Call

/-! ### Notices are about calls -/

/-- What is noted while the references of a text are expanded is noted for one of them. -/
private theorem exists_target_of_mem_notices {f : String → Context → Outcome} (hf : ∀ key c, (f key c).2.Agree c)
    {segments : List Segment} {c : Context} {notice : Notice}
    (h : notice ∈ (expandSegments f segments c).2.notices) :
    notice ∈ c.notices ∨ ∃ target ∈ segments.filterMap Lint.target?, ∃ d, d.Agree c ∧ notice ∉ d.notices ∧
      notice ∈ (f target d).2.notices := by
  induction segments generalizing c with
  | nil => exact .inl h
  | cons segment rest ih =>
    cases htarget : Lint.target? segment with
    | none =>
      rw [expandSegments_of_target?_none f rest c htarget] at h
      rw [List.filterMap_cons_none htarget]
      exact ih h
    | some key =>
      rw [List.filterMap_cons_some htarget]
      have hhere : notice ∈ (f key c).2.notices → notice ∈ c.notices ∨ ∃ target ∈ key :: rest.filterMap Lint.target?,
          ∃ d, d.Agree c ∧ notice ∉ d.notices ∧ notice ∈ (f target d).2.notices := by
        intro hmem
        by_cases hold : notice ∈ c.notices
        · exact .inl hold
        · exact .inr ⟨key, List.mem_cons_self, c, Context.Agree.refl c, hold, hmem⟩
      cases hresult : (f key c).1 with
      | error error =>
        rw [expandSegments_of_error rest htarget hresult] at h
        exact hhere h
      | ok expanded =>
        rw [expandSegments_of_ok rest htarget hresult] at h
        rcases ih h with h | ⟨target, hmem, d, hd, hnew, hnotice⟩
        · exact hhere h
        · exact .inr ⟨target, List.mem_cons_of_mem _ hmem, d, hd.trans (hf key c), hnew, hnotice⟩

private theorem exists_noted_of_mem_notices {tree : Tree} {base : Context} (call : Call) {c : Context}
    (hc : c.Agree (call.context base)) {notice : Notice} (h : notice ∈ (evalKey tree call.key c).2.notices) :
    notice ∈ c.notices ∨ ∃ other, Call.Leads tree base call other ∧ other.Noted tree base notice := by
  generalize hkey : call.key = key at h
  induction key, c using key_induction tree generalizing call with
  | refused key c reason hrefusal =>
    subst hkey
    rw [evalKey_of_refusal? tree hrefusal] at h
    rw [hc.refusal?] at hrefusal
    rcases List.mem_cons.1 h with rfl | h
    · exact .inr ⟨call, Relation.ReflTransGen.refl, .refused hrefusal⟩
    · exact .inl h
  | missing key c hrefusal hraw =>
    subst hkey
    rw [evalKey_of_raw?_none hrefusal hraw] at h
    rw [hc.refusal?] at hrefusal
    rcases List.mem_cons.1 h with rfl | h
    · exact .inr ⟨call, Relation.ReflTransGen.refl, .missing hrefusal hraw⟩
    · rcases List.mem_cons.1 h with rfl | h
      · rw [hc.stack]
        exact .inr ⟨call, Relation.ReflTransGen.refl, .entered hrefusal⟩
      · exact .inl h
  | entered key c template hrefusal hraw ih =>
    subst hkey
    rw [evalKey_of_raw? hrefusal hraw] at h
    have hrefusal' := hc.refusal? call.key ▸ hrefusal
    -- The notice is that of the entry, or it was made for a reference.
    have hpush : notice ∈ (c.push call.key).notices → notice ∈ c.notices ∨
        ∃ other, Call.Leads tree base call other ∧ other.Noted tree base notice := by
      intro h
      rcases List.mem_cons.1 h with rfl | h
      · rw [hc.stack]
        exact .inr ⟨call, Relation.ReflTransGen.refl, .entered hrefusal'⟩
      · exact .inl h
    cases hprepare : prepare c.replacements template with
    | error error =>
      rw [evalTemplate_of_error (c := c.push call.key) tree hprepare] at h
      exact hpush h
    | ok text =>
      rw [evalTemplate_of_ok (c := c.push call.key) tree hprepare] at h
      rcases exists_target_of_mem_notices (agree_evalKey tree) h with h | ⟨target, htarget, d, hd, hnew, h⟩
      · exact hpush h
      · let next : Call := ⟨call.stack ++ [call.key], target⟩
        have hnext : d.Agree (next.context base) := hd.trans (Call.agree_push hc target)
        have hmakes : Call.Makes tree base call next := .intro hrefusal' hraw (hc.replacements ▸ hprepare) htarget
        rcases ih target d hd next hnext rfl h with h | ⟨other, hleads, hnoted⟩
        · exact absurd h hnew
        · exact .inr ⟨other, .head hmakes hleads, hnoted⟩

/-- Every new notice of an evaluation is about a call that it makes. -/
theorem noted_of_mem_notices {tree : Tree} {key : String} {c : Context} {notice : Notice}
    (h : notice ∈ (evalKey tree key c).2.notices) :
    notice ∈ c.notices ∨ ∃ call, Call.Leads tree c ⟨c.stack, key⟩ call ∧ call.Noted tree c notice :=
  exists_noted_of_mem_notices ⟨c.stack, key⟩ (Context.Agree.refl c) h

/-! ### Calls are noted -/

/-- If the references of a text are expanded, each of them was. -/
private theorem exists_context_of_expandSegments_ok {f : String → Context → Outcome}
    (hf : ∀ key c, (f key c).2.Agree c) (hkeep : ∀ key c, c.notices ⊆ (f key c).2.notices)
    {segments : List Segment} {c : Context} {text : String} (h : (expandSegments f segments c).1 = .ok text)
    {target : String} (htarget : target ∈ segments.filterMap Lint.target?) :
    ∃ d expanded, d.Agree c ∧ (f target d).1 = .ok expanded ∧
      (f target d).2.notices ⊆ (expandSegments f segments c).2.notices := by
  induction segments generalizing c text with
  | nil => cases htarget
  | cons segment rest ih =>
    cases hkey : Lint.target? segment with
    | none =>
      rw [expandSegments_of_target?_none f rest c hkey] at h ⊢
      rw [List.filterMap_cons_none hkey] at htarget
      cases hrest : (expandSegments f rest c).1 with
      | error error => rw [hrest] at h; cases h
      | ok more => exact ih hrest htarget
    | some key =>
      rw [List.filterMap_cons_some hkey] at htarget
      cases hresult : (f key c).1 with
      | error error =>
        rw [expandSegments_of_error rest hkey hresult, hresult] at h
        cases h
      | ok expanded =>
        rw [expandSegments_of_ok rest hkey hresult] at h ⊢
        rcases List.mem_cons.1 htarget with rfl | htarget
        · refine ⟨c, expanded, Context.Agree.refl c, hresult, ?_⟩
          exact expandSegments_preserves (P := fun d => (f target c).2.notices ⊆ d.notices)
            (fun key d hd => List.Subset.trans hd (hkeep key d)) rest (List.Subset.refl _)
        · cases hrest : (expandSegments f rest (f key c).2).1 with
          | error error => rw [hrest] at h; cases h
          | ok more =>
            obtain ⟨d, expanded, hd, hok, hsub⟩ := ih hrest htarget
            exact ⟨d, expanded, hd.trans (hf key c), hok, hsub⟩

private theorem mem_notices_of_leads {tree : Tree} {base : Context} {call other : Call} {c : Context} {text : String}
    (hc : c.Agree (call.context base)) (hok : (evalKey tree call.key c).1 = .ok text)
    (hleads : Call.Leads tree base call other) {notice : Notice} (hnoted : other.Noted tree base notice) :
    notice ∈ (evalKey tree call.key c).2.notices := by
  induction hleads using Relation.ReflTransGen.head_induction_on generalizing c text with
  | refl =>
    cases hnoted with
    | refused hrefusal =>
      rw [evalKey_of_refusal? tree (hc.refusal? _ ▸ hrefusal)]
      exact List.mem_cons_self
    | missing hrefusal hraw =>
      rw [evalKey_of_raw?_none (hc.refusal? _ ▸ hrefusal) hraw]
      exact List.mem_cons_self
    | entered hrefusal =>
      rw [← hc.refusal?] at hrefusal
      have hentered : Notice.entered (other.stack ++ [other.key]) ∈ (c.push other.key).notices := by
        rw [← show c.stack = other.stack from hc.stack]
        exact List.mem_cons_self
      cases hraw : tree.raw? other.key with
      | none =>
        rw [evalKey_of_raw?_none hrefusal hraw]
        exact List.mem_cons_of_mem _ hentered
      | some template =>
        rw [evalKey_of_raw? hrefusal hraw]
        exact (Task.template template).subset_notices_outcome tree (c.push other.key) hentered
  | @head call _ hmakes _ ih =>
    cases hmakes with
    | @intro template prepared target hrefusal hraw hprepare htarget =>
      rw [← hc.refusal?] at hrefusal
      rw [← show c.replacements = base.replacements from hc.replacements] at hprepare
      rw [evalKey_of_raw? hrefusal hraw, evalTemplate_of_ok (c := c.push call.key) tree hprepare] at hok ⊢
      obtain ⟨d, expanded, hd, hexpanded, hsub⟩ := exists_context_of_expandSegments_ok (agree_evalKey tree)
        (subset_notices_evalKey tree) hok htarget
      exact hsub (ih (hd.trans (Call.agree_push hc target)) hexpanded)

/-- All calls that a successful evaluation makes are noted. -/
theorem mem_notices_of_noted {tree : Tree} {key text : String} {c : Context} (hok : (evalKey tree key c).1 = .ok text)
    {call : Call} (hleads : Call.Leads tree c ⟨c.stack, key⟩ call) {notice : Notice}
    (hnoted : call.Noted tree c notice) : notice ∈ (evalKey tree key c).2.notices :=
  mem_notices_of_leads (Context.Agree.refl c) hok hleads hnoted

end Evaluation

end Phrasebook
