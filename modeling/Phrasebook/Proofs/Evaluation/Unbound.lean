import Phrasebook.Proofs.Evaluation.Ceiling
import Phrasebook.Proofs.Evaluation.Substitution
import Phrasebook.Proofs.Lint.Graph

/-!
# Evaluation without values

If no name in the placeholders of a template has a value, the first two passes leave it as it is
(`prepare_of_unbound`).  If this is so for a whole tree, no evaluation fails, and its calls are the walks along
references that pass no key twice before their last one (`Call.leads_iff`).
-/

namespace Phrasebook

/-- The name a placeholder is about. -/
def Segment.name? : Segment → Option String
  | .directive _ (.plain name) => some name
  | .directive _ (.format name _) => some name
  | .directive _ (.plural name _) => some name
  | .directive _ (.reference _) => none
  | .literal _ => none

/-- No name in a placeholder has a value. -/
def Template.Unbound (replacements : Replacements) (template : String) : Prop :=
  ∀ segment ∈ placeholders template, ∀ name ∈ segment.name?, replacements.get? name = none

instance (replacements : Replacements) (template : String) : Decidable (Template.Unbound replacements template) :=
  inferInstanceAs (Decidable (∀ segment ∈ Template.placeholders template, ∀ name ∈ segment.name?,
    replacements.get? name = none))

/-- No name in a placeholder of any leaf has a value. -/
def Tree.Unbound (replacements : Replacements) (tree : Tree) : Prop :=
  ∀ key ∈ tree.leafKeys, ∀ template ∈ tree.raw? key, Template.Unbound replacements template

instance (replacements : Replacements) (tree : Tree) : Decidable (tree.Unbound replacements) :=
  inferInstanceAs (Decidable (∀ key ∈ tree.leafKeys, ∀ template ∈ tree.raw? key,
    Template.Unbound replacements template))

theorem Tree.Unbound.template {replacements : Replacements} {tree : Tree} (h : tree.Unbound replacements)
    {key template : String} (hraw : tree.raw? key = some template) : Template.Unbound replacements template :=
  h key (Tree.mem_leafKeys_of_raw? hraw) template hraw

namespace Evaluation

/-! ### The first two passes -/

variable {replacements : Replacements} {template : String}

private theorem substitute_placeholders_of_none {replace : Directive → Except EvalError (Option String)}
    (h : ∀ raw directive, .directive raw directive ∈ Template.placeholders template → replace directive = .ok none) :
    substitute replace (Template.placeholders template) = .ok template := by
  rw [substitute_of_none h]
  unfold Template.placeholders
  rw [Frame.sources_scan, String.ofList_toList]

/-- A template without values stays as it is. -/
theorem prepare_of_unbound (h : Template.Unbound replacements template) :
    prepare replacements template = .ok template := by
  have hinterpolate : interpolate replacements template = .ok template := by
    apply substitute_placeholders_of_none
    intro raw directive hmem
    have hname := h _ hmem
    cases directive with
    | plain name => simp [interpolation, hname name rfl]
    | format name spec => simp [interpolation, hname name rfl]
    | plural | reference => rfl
  have hpluralize : pluralize replacements template = .ok template := by
    apply substitute_placeholders_of_none
    intro raw directive hmem
    have hname := h _ hmem
    cases directive with
    | plural name forms => simp [pluralization, hname name rfl]
    | plain | format | reference => rfl
  unfold prepare
  rw [hinterpolate]
  exact hpluralize

/-! ### Success -/

private theorem exists_ok_expandSegments {f : String → Context → Outcome} {c : Context}
    (hf : ∀ key d, (f key d).2.Agree d) (h : ∀ key d, d.Agree c → ∃ text, (f key d).1 = .ok text)
    (segments : List Segment) : ∃ text, (expandSegments f segments c).1 = .ok text := by
  suffices hsuffices : ∀ d, d.Agree c → ∃ text, (expandSegments f segments d).1 = .ok text from
    hsuffices c (Context.Agree.refl c)
  induction segments with
  | nil => exact fun d _ => ⟨"", rfl⟩
  | cons segment rest ih =>
    intro d hd
    cases htarget : Lint.target? segment with
    | none =>
      obtain ⟨more, hmore⟩ := ih d hd
      rw [expandSegments_of_target?_none f rest d htarget, hmore]
      exact ⟨_, rfl⟩
    | some key =>
      obtain ⟨expanded, hexpanded⟩ := h key d hd
      obtain ⟨more, hmore⟩ := ih (f key d).2 ((hf key d).trans hd)
      rw [expandSegments_of_ok rest htarget hexpanded, hmore]
      exact ⟨_, rfl⟩

variable {tree : Tree}

/-- Without values nothing fails. -/
theorem exists_ok_of_unbound {c : Context} (h : tree.Unbound c.replacements) (key : String) :
    ∃ text, (evalKey tree key c).1 = .ok text := by
  induction key, c using key_induction tree with
  | refused key c reason hrefusal => exact ⟨"", by rw [evalKey_of_refusal? tree hrefusal]⟩
  | missing key c hrefusal hraw => exact ⟨"", by rw [evalKey_of_raw?_none hrefusal hraw]⟩
  | entered key c template hrefusal hraw ih =>
    rw [evalKey_of_raw? hrefusal hraw]
    have hprepare : prepare (c.push key).replacements template = .ok template := prepare_of_unbound (h.template hraw)
    rw [evalTemplate_of_ok tree hprepare]
    refine exists_ok_expandSegments (agree_evalKey tree) (fun target d hd => ih target d hd ?_) _
    rw [hd.replacements]
    exact h

/-! ### Calls -/

namespace Call

variable {base : Context}

theorem Makes.mentions {call next : Call} (hunbound : tree.Unbound base.replacements) (h : Makes tree base call next) :
    next.stack = call.stack ++ [call.key] ∧ call.key ∉ call.stack ∧ tree.Mentions call.key next.key := by
  cases h with
  | intro enters raw prepared refers =>
    rw [prepare_of_unbound (hunbound.template raw)] at prepared
    obtain rfl := Except.ok.inj prepared
    exact ⟨rfl, (Context.refusal?_eq_none.1 enters).1, _, raw, Lint.mem_targets_iff.1 refers⟩

theorem makes_of_mentions {stack : List String} {key target : String} (hunbound : tree.Unbound base.replacements)
    (hdepth : tree.leafKeys.length ≤ base.maxDepth) (hstack : tree.Stacked stack) (hkey : key ∉ stack)
    (h : tree.Mentions key target) : Makes tree base ⟨stack, key⟩ ⟨stack ++ [key], target⟩ := by
  obtain ⟨template, hraw, hmentions⟩ := h
  have henters : (context base ⟨stack, key⟩).refusal? key = none := refusal?_eq_none_of_stacked hstack hdepth hkey hraw
  have hprepared := prepare_of_unbound (hunbound.template hraw)
  exact @Makes.intro tree base ⟨stack, key⟩ template template target henters hraw hprepared
    (Lint.mem_targets_iff.2 hmentions)

/-- The calls that the evaluation of a key makes are the walks from it. -/
theorem leads_iff {key : String} {call : Call} (hunbound : tree.Unbound base.replacements)
    (hdepth : tree.leafKeys.length ≤ base.maxDepth) :
    Leads tree base ⟨[], key⟩ call ↔ (call.stack ++ [call.key]).IsChain tree.Mentions ∧ call.stack.Nodup ∧
      (call.stack ++ [call.key]).head? = some key := by
  constructor
  · intro h
    induction h with
    | refl => exact ⟨by simp, List.nodup_nil, rfl⟩
    | @tail call next _ hmakes ih =>
      obtain ⟨hchain, hnodup, hhead⟩ := ih
      obtain ⟨hstack, hkey, hmentions⟩ := hmakes.mentions hunbound
      rw [hstack]
      refine ⟨?_, ?_, ?_⟩
      · exact isChain_append_singleton.2 ⟨hchain, by simpa using hmentions⟩
      · exact nodup_append_singleton.2 ⟨hkey, hnodup⟩
      · rw [List.head?_append, hhead]
        rfl
  · obtain ⟨stack, last⟩ := call
    rintro ⟨hchain, hnodup, hhead⟩
    dsimp only at hchain hnodup hhead
    induction stack using List.reverseRecOn generalizing last with
    | nil =>
      obtain rfl : last = key := Option.some.inj hhead
      exact .refl
    | append_singleton stack previous ih =>
      obtain ⟨hprevious, hnodup⟩ := nodup_append_singleton.1 hnodup
      obtain ⟨hchain, hmentions⟩ := isChain_append_singleton.1 hchain
      rw [List.head?_append_of_ne_nil _ (by simp)] at hhead
      have hleads := ih previous hchain hnodup hhead
      have hstack := hleads.stacked (Tree.Stacked.nil tree)
      exact hleads.tail (makes_of_mentions hunbound hdepth hstack hprevious (hmentions _ (by simp)))

end Call

/-- What is noted while a key is evaluated with nothing being expanded. -/
def notices (tree : Tree) (replacements : Replacements) (maxDepth : Nat) (key : String) : List Notice :=
  (evalKey tree key (.fresh replacements maxDepth)).2.notices

theorem stacked_of_isChain {stack : List String} {last : String} (hchain : (stack ++ [last]).IsChain tree.Mentions)
    (hnodup : stack.Nodup) : tree.Stacked stack := by
  refine ⟨hnodup, fun key hkey => ?_⟩
  obtain ⟨before, after, rfl⟩ := List.append_of_mem hkey
  rw [List.append_assoc] at hchain
  have hstep := (List.isChain_cons.1 hchain.right_of_append).1
  obtain ⟨next, text, hraw, -⟩ : ∃ next, tree.Mentions key next := by
    cases after with
    | nil => exact ⟨last, hstep last rfl⟩
    | cons next after => exact ⟨next, hstep next rfl⟩
  rw [hraw]
  rfl

variable {maxDepth : Nat} {key target : String}

/-- Each walk from a key that passes no key twice before its last one is noted. -/
theorem mem_notices_iff (hunbound : tree.Unbound replacements) (hdepth : tree.leafKeys.length ≤ maxDepth)
    {notice : Notice} :
    notice ∈ notices tree replacements maxDepth key ↔
      ∃ call : Call, (call.stack ++ [call.key]).IsChain tree.Mentions ∧ call.stack.Nodup ∧
        (call.stack ++ [call.key]).head? = some key ∧ call.Noted tree (.fresh replacements maxDepth) notice := by
  let base : Context := .fresh replacements maxDepth
  have hunbound' : tree.Unbound base.replacements := hunbound
  constructor
  · intro h
    rcases noted_of_mem_notices h with h | ⟨call, hleads, hnoted⟩
    · cases h
    · obtain ⟨hchain, hnodup, hhead⟩ := (Call.leads_iff hunbound' hdepth).1 hleads
      exact ⟨call, hchain, hnodup, hhead, hnoted⟩
  · rintro ⟨call, hchain, hnodup, hhead, hnoted⟩
    obtain ⟨text, hok⟩ := exists_ok_of_unbound hunbound' key
    exact mem_notices_of_noted hok ((Call.leads_iff hunbound' hdepth).2 ⟨hchain, hnodup, hhead⟩) hnoted

/-- A key is refused at the end of each walk that comes back to a key on it. -/
theorem cycle_mem_notices_iff (hunbound : tree.Unbound replacements) (hdepth : tree.leafKeys.length ≤ maxDepth)
    {chain : List String} :
    .refused target (.cycle chain) ∈ notices tree replacements maxDepth key ↔
      ∃ stack, chain = stack ++ [target] ∧ stack.Nodup ∧ target ∈ stack ∧ chain.IsChain tree.Refers ∧
        chain.head? = some key := by
  rw [mem_notices_iff hunbound hdepth]
  constructor
  · rintro ⟨call, hchain, hnodup, hhead, hnoted⟩
    cases hnoted with
    | refused hrefusal =>
      obtain ⟨hmem, rfl⟩ : call.key ∈ call.stack ∧ chain = call.stack ++ [call.key] :=
        Context.refusal?_eq_cycle.1 hrefusal
      have hstack := stacked_of_isChain hchain hnodup
      refine ⟨call.stack, rfl, hnodup, hmem, ?_, hhead⟩
      refine hchain.imp_of_mem_imp fun x y _ hy hmentions => ⟨hmentions, hstack.isSome y ?_⟩
      rcases List.mem_append.1 hy with hy | hy
      · exact hy
      · exact List.mem_singleton.1 hy ▸ hmem
  · rintro ⟨stack, rfl, hnodup, hmem, hchain, hhead⟩
    refine ⟨⟨stack, target⟩, hchain.imp fun _ _ h => h.1, hnodup, hhead, .refused ?_⟩
    exact Context.refusal?_eq_cycle.2 ⟨hmem, rfl⟩

/-- A key without a message is entered at the end of each walk to it. -/
theorem missing_mem_notices_iff (hunbound : tree.Unbound replacements) (hdepth : tree.leafKeys.length < maxDepth) :
    .missing target ∈ notices tree replacements maxDepth key ↔ tree.raw? target = none ∧
      ∃ stack, (stack ++ [target]).IsChain tree.Mentions ∧ stack.Nodup ∧ (stack ++ [target]).head? = some key := by
  rw [mem_notices_iff hunbound (Nat.le_of_lt hdepth)]
  constructor
  · rintro ⟨call, hchain, hnodup, hhead, hnoted⟩
    cases hnoted with
    | missing _ hraw => exact ⟨hraw, call.stack, hchain, hnodup, hhead⟩
  · rintro ⟨hraw, stack, hchain, hnodup, hhead⟩
    have hstack := stacked_of_isChain hchain hnodup
    refine ⟨⟨stack, target⟩, hchain, hnodup, hhead, .missing (Context.refusal?_eq_none.2 ⟨fun hmem => ?_, ?_⟩) hraw⟩
    · have := hstack.isSome target hmem
      rw [hraw] at this
      cases this
    · have hlength := Tree.length_le_length_leafKeys hstack.nodup hstack.isSome
      show stack.length < maxDepth
      omega

end Evaluation

end Phrasebook
