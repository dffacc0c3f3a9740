import Mathlib.Data.List.Cycle
import Phrasebook.Proofs.Lint.Warnings

/-!
# Reported cycles

A cycle of references is looked for from its smallest key.  The search visits each key once, so of the simple paths
from there through greater keys to one last key it goes along the first one only, where paths are compared by what is
mentioned earlier in the message after which they part.  `cycle_reported_iff`: the cycles that are reported are those
whose path is the first one.
-/

namespace Phrasebook

namespace Tree

/-- A simple path of references that leads from a key through greater ones. -/
structure PathAbove (tree : Tree) (first : String) (rest : List String) : Prop where
  refers : (first :: rest).IsChain tree.Refers
  nodup : rest.Nodup
  above : ∀ key ∈ rest, first < key

/-- The paths part after a key whose message mentions the next key of the first path earlier. -/
def Precedes (tree : Tree) (path other : List String) : Prop :=
  ∃ stem key a b p q text, path = stem ++ key :: a :: p ∧ other = stem ++ key :: b :: q ∧
    tree.raw? key = some text ∧ Lint.Earlier (Lint.targets text) a b

end Tree

namespace Lint

/-! ### Cycles from a key -/

private theorem lastTargets_successors {graph : Graph} {key last : String} {path : List String}
    (h : (key :: path).getLast? = some last) : lastTargets graph (successors graph key) path = successors graph last := by
  rcases path with _ | ⟨next, path⟩
  · obtain rfl := Option.some.inj h
    rfl
  · rw [List.getLast?_cons_cons] at h
    unfold lastTargets
    rw [h]

variable {tree : Tree} {first : String} {rest : List String}

theorem white_graph_iff :
    White (graph tree) first ∅ (successors (graph tree) first) rest ↔ tree.PathAbove first rest := by
  have hrefers : (fun key target => target ∈ successors (graph tree) key) = tree.Refers := by
    funext key target
    exact propext mem_successors_graph
  rw [white_iff, hrefers]
  simp only [mem_successors_graph]
  constructor
  · rintro ⟨hfirst, hchain, hnodup, hfresh⟩
    exact ⟨List.isChain_cons.2 ⟨hfirst, hchain⟩, hnodup, fun key hkey => (hfresh key hkey).1⟩
  · rintro ⟨hrefers, hnodup, habove⟩
    obtain ⟨hfirst, hchain⟩ := List.isChain_cons.1 hrefers
    exact ⟨hfirst, hchain, hnodup, fun key hkey => ⟨habove key hkey, id⟩⟩

private theorem isSome_of_isChain {stem p : List String} {key a : String}
    (h : (stem ++ key :: a :: p).IsChain tree.Refers) : (tree.raw? a).isSome :=
  (List.isChain_cons_cons.1 h.right_of_append).1.2

theorem before_graph_iff {other : List String} (hrest : tree.PathAbove first rest) (hother : tree.PathAbove first other) :
    Before (graph tree) (successors (graph tree) first) other rest ↔ tree.Precedes (first :: other) (first :: rest) := by
  rw [before_iff]
  constructor
  · rintro ⟨stem, key, a, b, p, q, hp, hq, hearlier⟩
    have ha : (tree.raw? a).isSome := isSome_of_isChain (hp ▸ hother.refers)
    have hb : (tree.raw? b).isSome := isSome_of_isChain (hq ▸ hrest.refers)
    obtain ⟨text, hraw, hearlier⟩ := (earlier_successors_graph ha hb).1 hearlier
    exact ⟨stem, key, a, b, p, q, text, hp, hq, hraw, hearlier⟩
  · rintro ⟨stem, key, a, b, p, q, text, hp, hq, hraw, hearlier⟩
    have ha : (tree.raw? a).isSome := isSome_of_isChain (hp ▸ hother.refers)
    have hb : (tree.raw? b).isSome := isSome_of_isChain (hq ▸ hrest.refers)
    exact ⟨stem, key, a, b, p, q, hp, hq, (earlier_successors_graph ha hb).2 ⟨text, hraw, hearlier⟩⟩

/-- The search goes along the first of the simple paths through greater keys to a key. -/
theorem goes_graph_iff :
    Goes (graph tree) first ∅ (successors (graph tree) first) rest ↔ tree.PathAbove first rest ∧
      ∀ other, tree.PathAbove first other → other.getLast? = rest.getLast? →
        ¬ tree.Precedes (first :: other) (first :: rest) := by
  rw [goes_iff, white_graph_iff]
  refine and_congr_right fun hrest => forall_congr' fun other => ?_
  rw [white_graph_iff]
  refine imp_congr_right fun hother => imp_congr_right fun _ => not_congr ?_
  exact before_graph_iff hrest hother

/-- The end of a path refers to its beginning. -/
theorem mem_lastTargets_graph_iff (hrest : tree.PathAbove first rest) :
    first ∈ lastTargets (graph tree) (successors (graph tree) first) rest ↔
      (first :: rest ++ [first]).IsChain tree.Refers := by
  obtain ⟨last, hlast⟩ : ∃ last, (first :: rest).getLast? = some last := ⟨_, List.getLast?_cons⟩
  rw [lastTargets_successors hlast, mem_successors_graph, isChain_append_singleton, and_iff_right hrest.refers]
  simp [hlast]

/-! ### Reported cycles -/

/-- What is reported as a cycle leads from its first key through greater ones back to it, by the first path to the key
before the last one. -/
theorem reported_iff {chain : List String} :
    .cyclicReference chain ∈ warnings tree ↔ ∃ first rest, chain = first :: rest ++ [first] ∧
      tree.PathAbove first rest ∧ chain.IsChain tree.Refers ∧
      ∀ other, tree.PathAbove first other → other.getLast? = rest.getLast? →
        ¬ tree.Precedes (first :: other) (first :: rest) := by
  rw [cyclicReference_mem_warnings_iff, mem_cycles_iff]
  refine exists_congr fun first => ?_
  rw [mem_cyclesFrom_iff]
  refine exists_congr fun rest => ?_
  constructor
  · rintro ⟨hgoes, hlast, rfl⟩
    obtain ⟨hrest, hfirst⟩ := goes_graph_iff.1 hgoes
    exact ⟨rfl, hrest, (mem_lastTargets_graph_iff hrest).1 hlast, hfirst⟩
  · rintro ⟨rfl, hrest, hchain, hfirst⟩
    exact ⟨goes_graph_iff.2 ⟨hrest, hfirst⟩, (mem_lastTargets_graph_iff hrest).2 hchain, rfl⟩

private theorem exists_least {keys : List String} (h : keys ≠ []) : ∃ least ∈ keys, ∀ key ∈ keys, least ≤ key := by
  induction keys with
  | nil => exact absurd rfl h
  | cons key keys ih =>
    by_cases hkeys : keys = []
    · exact ⟨key, List.mem_cons_self, by simp [hkeys]⟩
    · obtain ⟨least, hleast, hle⟩ := ih hkeys
      rcases String.le_total key least with hkey | hkey
      · refine ⟨key, List.mem_cons_self, fun x hx => ?_⟩
        rcases List.mem_cons.1 hx with rfl | hx
        · exact String.le_refl x
        · exact String.le_trans hkey (hle x hx)
      · refine ⟨least, List.mem_cons_of_mem _ hleast, fun x hx => ?_⟩
        rcases List.mem_cons.1 hx with rfl | hx
        · exact hkey
        · exact hle x hx

/-- A cycle that passes no key twice can be begun with its smallest key. -/
theorem exists_smallest_first {cycle : Cycle String} (hne : cycle ≠ Cycle.nil) (hnodup : cycle.Nodup) :
    ∃ first rest, cycle = (first :: rest : List String) ∧ ∀ key ∈ rest, first < key := by
  induction cycle using Quotient.inductionOn' with
  | h keys =>
    obtain ⟨least, hleast, hle⟩ := exists_least fun hkeys => hne ((Cycle.coe_eq_nil keys).2 hkeys)
    obtain ⟨before, after, rfl⟩ := List.append_of_mem hleast
    refine ⟨least, after ++ before, Cycle.coe_eq_coe.2 List.isRotated_append, ?_⟩
    intro key hkey
    have hmem : key ∈ before ++ least :: after := by
      rcases List.mem_append.1 hkey with h | h <;> simp [h]
    have hne : key ≠ least := by
      rintro rfl
      have hnodup := List.nodup_middle.1 (Cycle.nodup_coe_iff.1 hnodup)
      exact (List.nodup_cons.1 hnodup).1 (List.mem_append.2 (List.mem_append.1 hkey).symm)
    exact String.not_le.1 fun hge => hne (String.le_antisymm hge (hle key hmem))

/-- Of the cycles that lead from a key through greater ones and come back from the same last key, one is reported. -/
theorem exists_reported (hrest : tree.PathAbove first rest) (hchain : (first :: rest ++ [first]).IsChain tree.Refers) :
    ∃ other, other.getLast? = rest.getLast? ∧ .cyclicReference (first :: other ++ [first]) ∈ warnings tree := by
  have hlast := (mem_lastTargets_graph_iff hrest).2 hchain
  obtain ⟨other, hgoes, hsame⟩ : ∃ other, Goes (graph tree) first ∅ (successors (graph tree) first) other ∧
      other.getLast? = rest.getLast? := by
    rcases rest with _ | ⟨key, rest⟩
    · exact ⟨[], trivial, rfl⟩
    · have hwhite := white_graph_iff.2 hrest
      obtain ⟨last, hend⟩ : ∃ last, (key :: rest).getLast? = some last := ⟨_, List.getLast?_cons⟩
      have hreach := hwhite.last_mem_reach List.mem_cons_self (mem_reach_of_mem hwhite.1 hwhite.2.1) hend
      rw [hend]
      exact exists_goes_of_mem_reach hreach
  refine ⟨other, hsame, cyclicReference_mem_warnings_iff.2 (mem_cycles_iff.2 ⟨first, mem_cyclesFrom_iff.2 ?_⟩)⟩
  refine ⟨other, hgoes, ?_, rfl⟩
  unfold lastTargets at hlast ⊢
  rwa [hsame]

/-- A simple cycle of references is reported from its smallest key, at most once, and just if no other simple path to
its last key through keys greater than the smallest comes before it. -/
theorem cycle_reported_iff {tree : Tree} {cycle : Cycle String} (hne : cycle ≠ Cycle.nil) (hnodup : cycle.Nodup)
    (hrefers : cycle.Chain tree.Refers) :
    ∃ first rest, cycle = (first :: rest : List String) ∧ (∀ key ∈ rest, first < key) ∧
      (warnings tree).count (.cyclicReference (first :: rest ++ [first])) ≤ 1 ∧
      ((warnings tree).count (.cyclicReference (first :: rest ++ [first])) = 1 ↔
        ∀ other, tree.PathAbove first other → other.getLast? = rest.getLast? →
          ¬ tree.Precedes (first :: other) (first :: rest)) := by
  obtain ⟨first, rest, rfl, habove⟩ := exists_smallest_first hne hnodup
  refine ⟨first, rest, rfl, habove, count_cyclicReference_le_one tree _, ?_⟩
  have hchain := (Cycle.chain_coe_cons _ _ _).1 hrefers
  have hrest : tree.PathAbove first rest :=
    ⟨hchain.left_of_append, (List.nodup_cons.1 (Cycle.nodup_coe_iff.1 hnodup)).2, habove⟩
  have hcount := count_cyclicReference_le_one tree (first :: rest ++ [first])
  have hone : (warnings tree).count (.cyclicReference (first :: rest ++ [first])) = 1 ↔
      .cyclicReference (first :: rest ++ [first]) ∈ warnings tree := by
    rw [← List.count_pos_iff]
    omega
  rw [hone, reported_iff]
  constructor
  · rintro ⟨first', rest', heq, -, -, hfirst⟩
    obtain ⟨rfl, heq⟩ := List.cons.inj heq
    obtain rfl := List.append_left_injective _ heq
    exact hfirst
  · exact fun hfirst => ⟨first, rest, rfl, hrest, hchain, hfirst⟩

/-- Two cycles that meet again before they come back: only the one that is mentioned earlier is reported, although the
other one is a simple cycle too and begins with its smallest key. -/
theorem second_cycle_not_reported :
    let tree : Tree := .object [("a", .scalar "$t(b)$t(c)"), ("b", .scalar "$t(d)"), ("c", .scalar "$t(d)"),
      ("d", .scalar "$t(a)")]
    let cycle : Cycle String := (["a", "c", "d"] : List String)
    cycle.Nodup ∧ cycle.Chain tree.Refers ∧ (∀ key ∈ ["c", "d"], "a" < key) ∧
      (warnings tree).count (.cyclicReference ["a", "c", "d", "a"]) = 0 ∧
      warnings tree = [.cyclicReference ["a", "b", "d", "a"]] := by
  intro tree cycle
  have hchain : ["a", "c", "d", "a"].IsChain tree.Refers := by decide +kernel
  refine ⟨by decide, (Cycle.chain_coe_cons _ _ _).2 hchain, by decide, by decide +kernel, by decide +kernel⟩

/-- The cycle that is reported in such a tree, begun with another key. -/
theorem cycle_reported_iff_first :
    let tree : Tree := .object [("a", .scalar "$t(b)$t(c)"), ("b", .scalar "$t(d)"), ("c", .scalar "$t(d)"),
      ("d", .scalar "$t(a)")]
    let cycle : Cycle String := (["d", "a", "b"] : List String)
    cycle ≠ Cycle.nil ∧ cycle.Nodup ∧ cycle.Chain tree.Refers ∧
      ∃ first rest, cycle = (first :: rest : List String) ∧ (∀ key ∈ rest, first < key) ∧
        (warnings tree).count (.cyclicReference (first :: rest ++ [first])) ≤ 1 ∧
        ((warnings tree).count (.cyclicReference (first :: rest ++ [first])) = 1 ↔
          ∀ other, tree.PathAbove first other → other.getLast? = rest.getLast? →
            ¬ tree.Precedes (first :: other) (first :: rest)) := by
  intro tree cycle
  have hne : cycle ≠ Cycle.nil := by simp [cycle]
  have hnodup : cycle.Nodup := by decide
  have hchain : cycle.Chain tree.Refers := by
    have hlist : ["d", "a", "b", "d"].IsChain tree.Refers := by decide +kernel
    exact (Cycle.chain_coe_cons _ _ _).2 hlist
  exact ⟨hne, hnodup, hchain, cycle_reported_iff hne hnodup hchain⟩

end Lint

end Phrasebook
