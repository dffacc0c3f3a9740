import Phrasebook.Proofs.Evaluation.Calls
import Phrasebook.Proofs.Paths
import Phrasebook.Proofs.Tree.LeafKeys

/-!
# The ceiling

The keys being expanded are different, and each of them has a message (`Tree.Stacked`, kept by every call:
`Call.Leads.stacked`).  So there are no more of them than the tree has leaves, and a key that a ceiling of that height
refuses is expanded already or has no message.  Hence no higher ceiling gives another result
(`result_independent_of_ceiling`).
-/

namespace Phrasebook

/-- The keys are different, and each of them has a message. -/
structure Tree.Stacked (tree : Tree) (stack : List String) : Prop where
  nodup : stack.Nodup
  isSome : ∀ key ∈ stack, (tree.raw? key).isSome

namespace Tree.Stacked

variable {tree : Tree} {stack : List String} {key template : String}

theorem nil (tree : Tree) : tree.Stacked [] :=
  ⟨List.nodup_nil, by simp⟩

theorem push (h : tree.Stacked stack) (hkey : key ∉ stack) (hraw : tree.raw? key = some template) :
    tree.Stacked (stack ++ [key]) := by
  constructor
  · exact nodup_append_singleton.2 ⟨hkey, h.nodup⟩
  · intro x hx
    rcases List.mem_append.1 hx with hx | hx
    · exact h.isSome x hx
    · rw [List.mem_singleton.1 hx, hraw]
      rfl

/-- There is a leaf for one more key with a message. -/
theorem length_lt (h : tree.Stacked stack) (hkey : key ∉ stack) (hraw : tree.raw? key = some template) :
    stack.length < tree.leafKeys.length := by
  have hpush := h.push hkey hraw
  have hlength := Tree.length_le_length_leafKeys hpush.nodup hpush.isSome
  rw [List.length_append, List.length_singleton] at hlength
  omega

end Tree.Stacked

namespace Evaluation

/-- A ceiling as high as there are leaves refuses no key with a message, unless it is being expanded. -/
theorem refusal?_eq_none_of_stacked {tree : Tree} {key template : String} {c : Context}
    (hstack : tree.Stacked c.stack) (hceiling : tree.leafKeys.length ≤ c.maxDepth) (hkey : key ∉ c.stack)
    (hraw : tree.raw? key = some template) : c.refusal? key = none := by
  have := hstack.length_lt hkey hraw
  exact Context.refusal?_eq_none.2 ⟨hkey, by omega⟩

theorem Call.Makes.stacked {tree : Tree} {base : Context} {call next : Call} (h : Call.Makes tree base call next)
    (hstack : tree.Stacked call.stack) : tree.Stacked next.stack := by
  cases h with
  | intro hrefusal hraw => exact hstack.push (Context.refusal?_eq_none.1 hrefusal).1 hraw

/-- All calls are made with different keys being expanded that have messages. -/
theorem Call.Leads.stacked {tree : Tree} {base : Context} {call other : Call} (h : Call.Leads tree base call other)
    (hstack : tree.Stacked call.stack) : tree.Stacked other.stack := by
  induction h with
  | refl => exact hstack
  | tail _ hmakes ih => exact hmakes.stacked ih

theorem fst_evalKey_of_raw?_none {tree : Tree} {key : String} (c : Context) (h : tree.raw? key = none) :
    (evalKey tree key c).1 = .ok "" := by
  cases hrefusal : c.refusal? key with
  | some reason => rw [evalKey_of_refusal? tree hrefusal]
  | none => rw [evalKey_of_raw?_none hrefusal h]

private theorem fst_evalKey_of_mem (tree : Tree) {key : String} {c : Context} (h : key ∈ c.stack) :
    (evalKey tree key c).1 = .ok "" := by
  rw [evalKey_of_refusal? tree (Context.refusal?_eq_cycle.2 ⟨h, rfl⟩)]

/-- Two evaluations under ceilings that are high enough go the same way. -/
private theorem fst_evalKey_congr {tree : Tree} {key : String} {c d : Context}
    (hreplacements : c.replacements = d.replacements) (hsame : c.stack = d.stack) (hstack : tree.Stacked c.stack)
    (hc : tree.leafKeys.length ≤ c.maxDepth) (hd : tree.leafKeys.length ≤ d.maxDepth) :
    (evalKey tree key c).1 = (evalKey tree key d).1 := by
  induction key, c using key_induction tree generalizing d with
  | refused key c reason hrefusal =>
    by_cases hkey : key ∈ c.stack
    · rw [fst_evalKey_of_mem tree hkey, fst_evalKey_of_mem tree (hsame ▸ hkey)]
    · cases hraw : tree.raw? key with
      | none => rw [fst_evalKey_of_raw?_none c hraw, fst_evalKey_of_raw?_none d hraw]
      | some template =>
        rw [refusal?_eq_none_of_stacked hstack hc hkey hraw] at hrefusal
        cases hrefusal
  | missing key c _ hraw => rw [fst_evalKey_of_raw?_none c hraw, fst_evalKey_of_raw?_none d hraw]
  | entered key c template hrefusal hraw ih =>
    have hkey := (Context.refusal?_eq_none.1 hrefusal).1
    have hrefusal' : d.refusal? key = none :=
      refusal?_eq_none_of_stacked (hsame ▸ hstack) hd (hsame ▸ hkey) hraw
    rw [evalKey_of_raw? hrefusal hraw, evalKey_of_raw? hrefusal' hraw]
    -- The contexts in which the references are evaluated differ from the ones after the entry in notices only.
    let R (x y : Context) : Prop := x.Agree (c.push key) ∧ y.Agree (d.push key)
    have hR : ∀ {x y}, R x y → x.replacements = y.replacements ∧ x.stack = y.stack := by
      rintro x y ⟨hx, hy⟩
      rw [hx.replacements, hy.replacements, hx.stack, hy.stack]
      exact ⟨hreplacements, congrArg (· ++ [key]) hsame⟩
    refine (evalTemplateWith_rel (R := R) ?_ (fun h => (hR h).1) template ⟨.refl _, .refl _⟩).1
    rintro target x y ⟨hx, hy⟩
    refine ⟨ih target x hx (hR ⟨hx, hy⟩).1 (hR ⟨hx, hy⟩).2 ?_ ?_ ?_, ?_⟩
    · rw [hx.stack]
      exact hstack.push hkey hraw
    · rw [hx.maxDepth]
      exact hc
    · rw [hy.maxDepth]
      exact hd
    · exact ⟨(agree_evalKey tree target x).trans hx, (agree_evalKey tree target y).trans hy⟩

/-- What a high enough ceiling refuses has no message. -/
private theorem raw?_eq_none_of_tooDeep {tree : Tree} {base : Context} {call : Call} {key last : String} {limit : Nat}
    (hstack : tree.Stacked call.stack) (hceiling : tree.leafKeys.length ≤ base.maxDepth)
    (h : call.Noted tree base (.refused key (.tooDeep last limit))) : tree.raw? key = none := by
  cases h with
  | refused hrefusal =>
    obtain ⟨hkey, hdepth, -, -⟩ := Context.refusal?_eq_tooDeep.1 hrefusal
    cases hraw : tree.raw? call.key with
    | none => rfl
    | some template =>
      have hlt : call.stack.length < tree.leafKeys.length := hstack.length_lt hkey hraw
      have hle : base.maxDepth ≤ call.stack.length := hdepth
      omega

/-- Ceilings that are at least the number of leaves all give the same result; what they refuse has no message and
would be left empty anyway. -/
theorem result_independent_of_ceiling (tree : Tree) (key : String) (replacements : Replacements) {low high : Nat}
    (hlow : tree.leafKeys.length ≤ low) (hhigh : tree.leafKeys.length ≤ high) :
    (evalKey tree key (.fresh replacements low)).1 = (evalKey tree key (.fresh replacements high)).1 ∧
      ∀ refused last limit, .refused refused (.tooDeep last limit) ∈
        (evalKey tree key (.fresh replacements low)).2.notices → tree.raw? refused = none := by
  constructor
  · exact fst_evalKey_congr rfl rfl (Tree.Stacked.nil tree) hlow hhigh
  · intro refused last limit h
    rcases noted_of_mem_notices h with h | ⟨call, hleads, hnoted⟩
    · cases h
    · exact raw?_eq_none_of_tooDeep (hleads.stacked (Tree.Stacked.nil tree)) hlow hnoted

/-- Two leaves, and a value that refers to both of them and to a key without a message: the lower ceiling is met. -/
theorem result_independent_of_ceiling_two_three :
    let tree : Tree := .object [("a", .scalar "{{x}}"), ("b", .scalar "$t(c)")]
    let replacements : Replacements := .ofList [("x", .text "$t(b)$t(a)$t(c)")]
    tree.leafKeys.length ≤ 2 ∧ tree.leafKeys.length ≤ 3 ∧
      (evalKey tree "a" (.fresh replacements 2)).1 = (evalKey tree "a" (.fresh replacements 3)).1 ∧
      ∀ refused last limit, .refused refused (.tooDeep last limit) ∈
        (evalKey tree "a" (.fresh replacements 2)).2.notices → tree.raw? refused = none := by
  intro tree replacements
  have hlow : tree.leafKeys.length ≤ 2 := by decide
  have hhigh : tree.leafKeys.length ≤ 3 := by decide
  exact ⟨hlow, hhigh, result_independent_of_ceiling tree "a" replacements hlow hhigh⟩

end Evaluation

end Phrasebook
