import Phrasebook.Proofs.Lint.Warnings
import Phrasebook.Proofs.Tree.KeyOrder

/-!
# The order of the warnings

The warnings come key by key, with the cycles last (`filter_not_isCycle_warnings`), each under the key of its message
(`key_of_mem_keyWarnings`), so the order of the keys is that of the warnings.  Both are in order unless a name stands in
the way (`leafKeys_ascend_iff`), as one with a hyphen may (`hyphen_before_dot`).
-/

namespace Phrasebook

/-- The warning is of references that lead in a circle. -/
def Warning.isCycle : Warning → Bool
  | cyclicReference _ => true
  | _ => false

namespace Lint

variable {tree : Tree}

theorem key_of_mem_keyWarnings {key : String} {warning : Warning} (h : warning ∈ keyWarnings tree key) :
    warning.key = key ∧ warning.isCycle = false := by
  obtain ⟨text, -, h⟩ := mem_keyWarnings_iff.1 h
  rcases List.mem_append.1 h with h | h
  · obtain ⟨segment, -, h⟩ := List.mem_filterMap.1 h
    rcases placeholderWarning?_eq_some h with ⟨name, count, rfl⟩ | ⟨name, spec, error, rfl⟩ <;> exact ⟨rfl, rfl⟩
  · obtain ⟨target, -, h⟩ := List.mem_filterMap.1 h
    obtain ⟨-, rfl⟩ := referenceWarning?_eq_some.1 h
    exact ⟨rfl, rfl⟩

/-- What is left without the cycles is what is wrong with the messages by themselves, key by key. -/
theorem filter_not_isCycle_warnings (tree : Tree) :
    (warnings tree).filter (! ·.isCycle) = tree.leafKeys.flatMap (keyWarnings tree) := by
  have hmessages : (tree.leafKeys.flatMap (keyWarnings tree)).filter (! ·.isCycle) =
      tree.leafKeys.flatMap (keyWarnings tree) := by
    rw [List.filter_eq_self]
    intro warning h
    obtain ⟨key, -, h⟩ := List.mem_flatMap.1 h
    simp [(key_of_mem_keyWarnings h).2]
  have hcycles : ((cycles (graph tree)).map Warning.cyclicReference).filter (! ·.isCycle) = [] := by
    simp [Warning.isCycle]
  unfold warnings
  rw [List.filter_append, hmessages, hcycles, List.append_nil]

/-- Where the keys ascend, the warnings of the messages do not descend. -/
theorem pairwise_key_warnings (h : tree.leafKeys.Pairwise (· < ·)) :
    ((warnings tree).filter (! ·.isCycle)).Pairwise (·.key ≤ ·.key) := by
  rw [filter_not_isCycle_warnings, List.pairwise_flatMap]
  constructor
  · intro key _
    refine List.pairwise_of_forall_mem_list fun warning hwarning other hother => ?_
    rw [(key_of_mem_keyWarnings hwarning).1, (key_of_mem_keyWarnings hother).1]
  · refine h.imp fun hlt warning hwarning other hother => ?_
    rw [(key_of_mem_keyWarnings hwarning).1, (key_of_mem_keyWarnings hother).1]
    exact String.not_lt.1 (String.lt_asymm hlt)

/-- The keys of the leaves of an ordered tree ascend where siblings keep their order, and nowhere else; this holds of
trees with names of letters, digits and underscores.  No key is listed twice then, and the warnings other than those of
cycles come in the order of their keys. -/
theorem leafKeys_ascend_iff (hordered : tree.Ordered) :
    (tree.leafKeys.Pairwise (· < ·) ↔ tree.DotsFirst) ∧
      ((tree.EveryName fun name => ∀ c ∈ name.toList, '.' < c) → tree.DotsFirst) ∧
      (tree.DotsFirst →
        tree.leafKeys.Nodup ∧ ((warnings tree).filter (! ·.isCycle)).Pairwise (·.key ≤ ·.key)) := by
  have hascend := Tree.pairwise_leafKeys_iff hordered
  refine ⟨hascend, Tree.dotsFirst_of_everyName, fun hdots => ?_⟩
  exact ⟨(hascend.2 hdots).nodup, pairwise_key_warnings (hascend.2 hdots)⟩

theorem leafKeys_ascend_iff_prefix :
    let tree : Tree := .object [("a", .object [("b", .scalar "$t(x)")]), ("ab", .array [.scalar "$t(x)"])]
    tree.Ordered ∧ (tree.EveryName fun name => ∀ c ∈ name.toList, '.' < c) ∧ tree.DotsFirst ∧
      tree.leafKeys.Pairwise (· < ·) ∧ tree.leafKeys.Nodup ∧
        ((warnings tree).filter (! ·.isCycle)).Pairwise (·.key ≤ ·.key) := by
  intro tree
  have hordered : tree.Ordered := by
    simp only [tree, Tree.Ordered, Tree.OrderedChildren, Tree.OrderedItems, Members.Ascending]
    decide
  have hnames : tree.EveryName fun name => ∀ c ∈ name.toList, '.' < c := by
    simp [tree, Tree.EveryName, Tree.EveryNameBelow, Tree.EveryNameIn]
  obtain ⟨hascend, hdots, hconsequences⟩ := leafKeys_ascend_iff hordered
  exact ⟨hordered, hnames, hdots hnames, hascend.2 (hdots hnames), hconsequences (hdots hnames)⟩

/-- The hyphen comes before the dot, so the key `a.b`, listed before `a-c`, comes after it; and so do the warnings. -/
theorem hyphen_before_dot :
    let tree : Tree := .object [("a", .object [("b", .scalar "$t(x)")]), ("a-c", .scalar "$t(x)")]
    tree.Ordered ∧ tree.leafKeys = ["a.b", "a-c"] ∧ ¬ tree.leafKeys.Pairwise (· < ·) ∧
      ¬ ((warnings tree).filter (! ·.isCycle)).Pairwise (·.key ≤ ·.key) := by
  intro tree
  have hordered : tree.Ordered := by
    simp only [tree, Tree.Ordered, Tree.OrderedChildren, Members.Ascending]
    decide
  exact ⟨hordered, by decide +kernel, by decide +kernel, by decide +kernel⟩

end Lint

end Phrasebook
