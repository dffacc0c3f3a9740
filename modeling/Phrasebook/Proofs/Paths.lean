import Mathlib.Data.List.Chain
import Mathlib.Data.List.Nodup
import Mathlib.Logic.Relation

/-!
# Simple paths

A path that leads from one thing to another need not pass anything twice (`exists_simple_path`), and a path that does
comes back to a simple one on it (`exists_return_of_not_nodup`).
-/

namespace Phrasebook

variable {α : Type} {r : α → α → Prop}

theorem nodup_append_singleton {path : List α} {last : α} : (path ++ [last]).Nodup ↔ last ∉ path ∧ path.Nodup := by
  rw [← List.concat_eq_append, List.nodup_concat]

theorem isChain_append_singleton {path : List α} {last : α} :
    (path ++ [last]).IsChain r ↔ path.IsChain r ∧ ∀ previous ∈ path.getLast?, r previous last := by
  rw [List.isChain_append]
  simp

/-- Where a way comes back, the loop is left out. -/
theorem exists_simple_path {a b : α} (h : Relation.ReflTransGen r a b) :
    ∃ rest, (a :: rest).IsChain r ∧ (a :: rest).Nodup ∧ (a :: rest).getLast? = some b := by
  induction h using Relation.ReflTransGen.head_induction_on with
  | refl => exact ⟨[], by simp⟩
  | @head a next hstep _ ih =>
    obtain ⟨rest, hchain, hnodup, hlast⟩ := ih
    by_cases ha : a ∈ next :: rest
    · obtain ⟨before, after, hsplit⟩ := List.append_of_mem ha
      rw [hsplit] at hchain hnodup hlast
      refine ⟨after, hchain.right_of_append, hnodup.of_append_right, ?_⟩
      rwa [List.getLast?_append_cons] at hlast
    · refine ⟨next :: rest, ?_, List.nodup_cons.2 ⟨ha, hnodup⟩, ?_⟩
      · exact List.isChain_cons_cons.2 ⟨hstep, hchain⟩
      · rwa [List.getLast?_cons_cons]

/-- What is not simple has a simple beginning that is followed by something on it. -/
theorem exists_return_of_not_nodup {path : List α} (h : ¬ path.Nodup) :
    ∃ simple a rest, path = simple ++ a :: rest ∧ simple.Nodup ∧ a ∈ simple := by
  induction path using List.reverseRecOn with
  | nil => exact absurd List.nodup_nil h
  | append_singleton path last ih =>
    by_cases hpath : path.Nodup
    · refine ⟨path, last, [], rfl, hpath, ?_⟩
      by_contra hlast
      exact h (nodup_append_singleton.2 ⟨hlast, hpath⟩)
    · obtain ⟨simple, a, rest, rfl, hsimple, ha⟩ := ih hpath
      exact ⟨simple, a, rest ++ [last], by simp, hsimple, ha⟩

end Phrasebook
