import Phrasebook.Proofs.Lint.FirstPath
import Phrasebook.Proofs.Template.Reference
import Phrasebook.Proofs.Tree.LeafKeys

/-!
# The graph of references

The graph that is searched has the references of the tree as its edges (`mem_successors_graph`), in the order in which
they are mentioned (`earlier_successors_graph`).
-/

namespace Phrasebook

namespace Tree

/-- The message of a key holds the reference to another key. -/
def Mentions (tree : Tree) (key target : String) : Prop :=
  ∃ text, tree.raw? key = some text ∧ Template.Mentions text target

/-- A reference to a key with a message. -/
def Refers (tree : Tree) (key target : String) : Prop :=
  tree.Mentions key target ∧ (tree.raw? target).isSome

end Tree

namespace Lint

variable {tree : Tree}

/-- Looking up a key among keys that are given their values. -/
private theorem get?_filterMap {α : Type} (f : String → Option α) (keys : List String) (key : String) :
    Members.get? (keys.filterMap fun name => (f name).map fun value => (name, value)) key =
      if key ∈ keys then f key else none := by
  induction keys with
  | nil => rfl
  | cons name keys ih =>
    cases hf : f name with
    | none =>
      rw [List.filterMap_cons_none (by rw [hf]; rfl), ih]
      by_cases hkey : key = name
      · subst hkey
        simp [hf]
      · simp [hkey]
    | some value =>
      rw [List.filterMap_cons_some (by rw [hf]; rfl)]
      by_cases hkey : key = name
      · subst hkey
        rw [Members.get?_cons_self, hf]
        simp
      · rw [Members.get?_cons_of_ne hkey, ih]
        simp [hkey]

/-- A key with a message stands in the graph with those of its targets that have one. -/
theorem get?_graph (tree : Tree) (key : String) :
    Members.get? (graph tree) key =
      (tree.raw? key).map fun text => (targets text).filter fun target => (tree.raw? target).isSome := by
  let f (key : String) := (tree.raw? key).map fun text => (targets text).filter fun target => (tree.raw? target).isSome
  have hgraph : graph tree = Members.ofPairs (tree.leafKeys.filterMap fun key => (f key).map fun value => (key, value)) := by
    simp only [graph, f, Option.map_map, Function.comp_def]
  rw [hgraph, Members.get?_ofPairs, ← List.filterMap_reverse, get?_filterMap]
  by_cases hkey : key ∈ tree.leafKeys
  · rw [if_pos (List.mem_reverse.2 hkey)]
  · rw [if_neg (mt List.mem_reverse.1 hkey)]
    cases hraw : tree.raw? key with
    | none => rfl
    | some text => exact absurd (Tree.mem_leafKeys_of_raw? hraw) hkey

theorem successors_graph_of_raw? {key text : String} (h : tree.raw? key = some text) :
    successors (graph tree) key = (targets text).filter fun target => (tree.raw? target).isSome := by
  unfold successors
  rw [get?_graph, h]
  rfl

theorem successors_graph_of_raw?_none {key : String} (h : tree.raw? key = none) : successors (graph tree) key = [] := by
  unfold successors
  rw [get?_graph, h]
  rfl

theorem mem_successors_graph {key target : String} : target ∈ successors (graph tree) key ↔ tree.Refers key target := by
  unfold Tree.Refers Tree.Mentions
  cases hraw : tree.raw? key with
  | none => simp [successors_graph_of_raw?_none hraw]
  | some text => simp [successors_graph_of_raw? hraw, mem_targets_iff]

instance (tree : Tree) (key target : String) : Decidable (tree.Refers key target) :=
  decidable_of_iff _ mem_successors_graph

private theorem earlier_filter {p : String → Bool} {targets : List String} {a b : String} (ha : p a) (hb : p b) :
    Earlier (targets.filter p) a b ↔ Earlier targets a b := by
  constructor
  · intro h
    have hmem : b ∈ targets := by
      obtain ⟨before, after, hsplit, -⟩ := h
      have : b ∈ targets.filter p := hsplit ▸ by simp
      exact List.mem_of_mem_filter this
    obtain ⟨before, after, rfl, hbefore⟩ := List.eq_append_cons_of_mem hmem
    rw [List.filter_append, List.filter_cons_of_pos hb] at h
    have ha := h.append fun hmem => hbefore (List.mem_of_mem_filter hmem)
    exact ⟨before, after, rfl, hbefore, List.mem_of_mem_filter ha⟩
  · rintro ⟨before, after, rfl, hbefore, hmem⟩
    refine ⟨before.filter p, after.filter p, ?_, ?_, List.mem_filter.2 ⟨hmem, ha⟩⟩
    · rw [List.filter_append, List.filter_cons_of_pos hb]
    · exact fun hmem => hbefore (List.mem_of_mem_filter hmem)

/-- Of two targets with a message, the one that is mentioned earlier comes first. -/
theorem earlier_successors_graph {key a b : String} (ha : (tree.raw? a).isSome) (hb : (tree.raw? b).isSome) :
    Earlier (successors (graph tree) key) a b ↔ ∃ text, tree.raw? key = some text ∧ Earlier (targets text) a b := by
  cases hraw : tree.raw? key with
  | none =>
    rw [successors_graph_of_raw?_none hraw]
    simp [Earlier]
  | some text =>
    rw [successors_graph_of_raw? hraw, earlier_filter ha hb]
    simp

end Lint

end Phrasebook
