import Phrasebook.Proofs.Lint.Warnings
import Phrasebook.Proofs.Suggestion.Ranking
import Phrasebook.Proofs.Tree.Messages

/-!
# What is suggested for a dangling reference

The suggestions are taken from the keys that are listed.  One of them has a message if a way to a leaf spells it with
names that can be segments; they all do, and are different, if there are no other ways to them
(`suggestions_are_usable`).  Names with dots make other ways, to keys that no reference finds
(`suggestions_without_message`).
-/

namespace Phrasebook.Lint

variable {tree : Tree} {key target : String} {suggestions : List String}

private theorem forall_isSegment_iff (hordered : tree.Ordered) {keys : List String} (hkeys : keys ⊆ tree.leafKeys) :
    (∀ path ∈ tree.leafPaths, ".".intercalate path ∈ keys → ∀ name ∈ path, KeyPath.IsSegment name) ↔
      ∀ key ∈ keys, (tree.raw? key).isSome ∧ tree.leafKeys.count key = 1 := by
  constructor
  · intro h key hkey
    refine (Tree.forall_spells_iff hordered (hkeys hkey)).1 fun path hpath hne hjoined => ?_
    exact ⟨hne, hjoined, h path hpath (hjoined ▸ hkey)⟩
  · intro h path hpath hjoined name hname
    have hspells := (Tree.forall_spells_iff hordered (hkeys hjoined)).2 (h _ hjoined)
    exact (hspells path hpath (List.ne_nil_of_mem hname) rfl).isSegment name hname

/-- At most three keys are suggested, none of them the target, and none more often than it is listed.  A suggestion has
a message just if a way to a leaf spells it.  A reference to it is not reported then, whatever the messages are as long
as they have the same keys.  The suggestions all have messages and are listed once just if all ways to them are of
names that can be segments, and then they are different. -/
theorem suggestions_are_usable (hordered : tree.Ordered)
    (h : .danglingReference key target suggestions ∈ warnings tree) :
    suggestions.length ≤ 3 ∧ target ∉ suggestions ∧
      (∀ suggestion, suggestions.count suggestion ≤ tree.leafKeys.count suggestion) ∧
      (∀ suggestion ∈ suggestions,
        ((tree.raw? suggestion).isSome ↔ ∃ path ∈ tree.leafPaths, Tree.Spells path suggestion) ∧
        ((tree.raw? suggestion).isSome → ∀ edited : Tree, (∀ k, (edited.raw? k).isSome = (tree.raw? k).isSome) →
          ∀ source more, .danglingReference source suggestion more ∉ warnings edited)) ∧
      ((∀ path ∈ tree.leafPaths, ".".intercalate path ∈ suggestions → ∀ name ∈ path, KeyPath.IsSegment name) ↔
        ∀ suggestion ∈ suggestions, (tree.raw? suggestion).isSome ∧ tree.leafKeys.count suggestion = 1) ∧
      ((∀ path ∈ tree.leafPaths, ".".intercalate path ∈ suggestions → ∀ name ∈ path, KeyPath.IsSegment name) →
        suggestions.Nodup) := by
  obtain ⟨-, -, rfl⟩ := danglingReference_mem_warnings_iff.1 h
  have hsubperm := Suggestion.suggest_subperm target tree.leafKeys
  have hways := forall_isSegment_iff hordered hsubperm.subset
  refine ⟨Suggestion.length_suggest_le _ _, Suggestion.notMem_suggest _ _, fun _ => hsubperm.count_le _,
    fun suggestion _ => ⟨Tree.isSome_raw?_iff hordered, ?_⟩, hways, fun hsegments => ?_⟩
  · intro hraw edited hsame source more hwarning
    have hnone := (danglingReference_mem_warnings_iff.1 hwarning).2.1
    rw [← hsame, hnone] at hraw
    cases hraw
  · rw [List.nodup_iff_count_le_one]
    intro suggestion
    by_cases hmem : suggestion ∈ Suggestion.suggest target tree.leafKeys
    · exact (hsubperm.count_le suggestion).trans (hways.1 hsegments suggestion hmem).2.le
    · rw [List.count_eq_zero.2 hmem]
      exact Nat.zero_le 1

/-- A warning whose suggestions are known by the distances. -/
private theorem reported_of_raw? (text : String) (htext : tree.raw? key = some text)
    (htarget : target ∈ targets text) (hnone : tree.raw? target = none)
    (hranked : suggestions = (Suggestion.ranked (Suggestion.limit target) target tree.leafKeys).take 3) :
    .danglingReference key target suggestions ∈ warnings tree := by
  have hsuggest := Suggestion.suggest_eq_take_ranked target tree.leafKeys
  have hmentions : tree.Mentions key target := ⟨text, htext, mem_targets_iff.1 htarget⟩
  exact danglingReference_mem_warnings_iff.2 ⟨hmentions, hnone, hranked.trans hsuggest.symm⟩

theorem suggestions_are_usable_nested :
    let tree : Tree := .object [("a", .object [("bc", .scalar "x"), ("bd", .array [])]), ("z", .scalar "$t(a.be)")]
    tree.Ordered ∧ .danglingReference "z" "a.be" ["a.bc", "a.bd"] ∈ warnings tree ∧
      (∀ path ∈ tree.leafPaths, ".".intercalate path ∈ ["a.bc", "a.bd"] → ∀ name ∈ path, KeyPath.IsSegment name) ∧
      (∀ suggestion ∈ ["a.bc", "a.bd"], (tree.raw? suggestion).isSome ∧ tree.leafKeys.count suggestion = 1) ∧
      ["a.bc", "a.bd"].Nodup := by
  intro tree
  have hordered : tree.Ordered := by
    simp only [tree, Tree.Ordered, Tree.OrderedChildren, Tree.OrderedItems, Members.Ascending]
    decide
  have hwarning : .danglingReference "z" "a.be" ["a.bc", "a.bd"] ∈ warnings tree :=
    reported_of_raw? "$t(a.be)" (by decide +kernel) (by decide +kernel) (by decide +kernel) (by decide +kernel)
  have hways : ∀ path ∈ tree.leafPaths, ".".intercalate path ∈ ["a.bc", "a.bd"] →
      ∀ name ∈ path, KeyPath.IsSegment name := by
    decide +kernel
  obtain ⟨-, -, -, -, hiff, hdistinct⟩ := suggestions_are_usable hordered hwarning
  exact ⟨hordered, hwarning, hways, hiff.1 hways, hdistinct hways⟩

/-- Both leaves have names with dots that make up the same key, which is suggested twice and has no message. -/
theorem suggestions_without_message :
    let tree : Tree := .object [("a", .object [("b.c", .scalar "x")]), ("a.b", .object [("c", .scalar "y")]),
      ("z", .scalar "$t(a.b.d)")]
    tree.Ordered ∧ .danglingReference "z" "a.b.d" ["a.b.c", "a.b.c"] ∈ warnings tree ∧
      ¬ ["a.b.c", "a.b.c"].Nodup ∧ tree.raw? "a.b.c" = none := by
  intro tree
  have hordered : tree.Ordered := by
    simp only [tree, Tree.Ordered, Tree.OrderedChildren, Members.Ascending]
    decide
  have hwarning : .danglingReference "z" "a.b.d" ["a.b.c", "a.b.c"] ∈ warnings tree :=
    reported_of_raw? "$t(a.b.d)" (by decide +kernel) (by decide +kernel) (by decide +kernel) (by decide +kernel)
  exact ⟨hordered, hwarning, by decide, by decide +kernel⟩

end Phrasebook.Lint
