import Phrasebook.Proofs.Evaluation.Unbound
import Phrasebook.Proofs.Lint.Cycles

/-!
# Warnings and evaluation

What is reported of the references of a tree is what an evaluation without values meets
(`evaluation_meets_reported`).  A cycle need not be reported for it: if an evaluation comes back to a key, the cycle
that it went along has a smallest key, and from there some cycle is reported.
-/

namespace Phrasebook

namespace Lint

variable {tree : Tree}

/-- Everything on a path can be reached from its beginning. -/
private theorem reaches_of_mem {path : List String} {key target : String} (hchain : path.IsChain tree.Refers)
    (hhead : path.head? = some key) (htarget : target ∈ path) : Relation.ReflTransGen tree.Refers key target := by
  refine hchain.induction (Relation.ReflTransGen tree.Refers key) path (fun _ _ hstep hreach => hreach.tail hstep) ?_
    target htarget
  intro hne
  rw [List.head_eq_iff_head?_eq_some hne |>.2 hhead]

/-! ### Cycles -/

/-- A path that comes back leads from its beginning to a key on a cycle that is reported. -/
private theorem exists_reported_of_isChain {key : String} {keys : List String} (hnodup : (key :: keys).Nodup)
    (hchain : (key :: keys ++ [key]).IsChain tree.Refers) :
    ∃ chain, .cyclicReference chain ∈ warnings tree ∧ ∃ x ∈ chain, Relation.ReflTransGen tree.Refers key x := by
  have hcycle : Cycle.Chain tree.Refers (key :: keys : List String) := (Cycle.chain_coe_cons _ _ _).2 hchain
  obtain ⟨first, rest, heq, habove⟩ := exists_smallest_first (by simp) (Cycle.nodup_coe_iff.2 hnodup)
  have hfirst : first ∈ key :: keys := (Cycle.coe_eq_coe.1 heq).mem_iff.2 List.mem_cons_self
  have hrest : (first :: rest).Nodup := (Cycle.coe_eq_coe.1 heq).nodup_iff.1 hnodup
  have hback : (first :: rest ++ [first]).IsChain tree.Refers := by
    rw [heq] at hcycle
    exact (Cycle.chain_coe_cons _ _ _).1 hcycle
  obtain ⟨other, -, hreported⟩ := exists_reported ⟨hback.left_of_append, (List.nodup_cons.1 hrest).2, habove⟩ hback
  refine ⟨_, hreported, first, List.mem_cons_self, ?_⟩
  exact reaches_of_mem hchain rfl (List.mem_append_left _ hfirst)

/-- From a key on a cycle that is reported one comes to its beginning. -/
private theorem reaches_first {first x : String} {rest : List String}
    (hchain : (first :: rest ++ [first]).IsChain tree.Refers) (hx : x ∈ first :: rest ++ [first]) :
    Relation.ReflTransGen tree.Refers x first := by
  refine hchain.backwards_induction (Relation.ReflTransGen tree.Refers · first) _
    (fun _ _ hstep hreach => hreach.head hstep) (fun _ => ?_) x hx
  rw [List.getLast_append_singleton]

variable {replacements : Replacements} {maxDepth : Nat} {key : String}

/-- An evaluation comes back to a key if a cycle can be reached. -/
private theorem exists_cycle_mem_notices (hunbound : tree.Unbound replacements)
    (hdepth : tree.leafKeys.length ≤ maxDepth) {first : String} {rest : List String}
    (hchain : (first :: rest ++ [first]).IsChain tree.Refers) (hreach : Relation.ReflTransGen tree.Refers key first) :
    ∃ target chain, .refused target (.cycle chain) ∈ Evaluation.notices tree replacements maxDepth key := by
  -- The way to the cycle and once round it passes the first key twice.
  obtain ⟨path, hpath, -, hlast⟩ := exists_simple_path hreach
  have hwalk : (key :: path ++ (rest ++ [first])).IsChain tree.Refers := by
    obtain ⟨hfirst, hrest⟩ := List.isChain_cons.1 hchain
    refine List.isChain_append.2 ⟨hpath, hrest, fun x hx => ?_⟩
    obtain rfl : first = x := by simpa [hlast] using hx
    exact hfirst
  have htwice : ¬ (key :: path ++ (rest ++ [first])).Nodup := by
    intro hnodup
    have hmem : first ∈ key :: path := List.mem_of_getLast? hlast
    exact (List.nodup_append.1 hnodup).2.2 first hmem first (by simp) rfl
  obtain ⟨simple, target, more, hsplit, hsimple, htarget⟩ := exists_return_of_not_nodup htwice
  refine ⟨target, simple ++ [target], (Evaluation.cycle_mem_notices_iff hunbound hdepth).2 ?_⟩
  rw [hsplit, List.append_cons] at hwalk
  refine ⟨simple, rfl, hsimple, htarget, hwalk.left_of_append, ?_⟩
  have hhead : some key = (simple ++ target :: more).head? := congrArg List.head? hsplit
  rw [List.append_cons, List.head?_append_of_ne_nil _ (by simp)] at hhead
  exact hhead.symm

private theorem cycle_met_iff (hunbound : tree.Unbound replacements) (hdepth : tree.leafKeys.length ≤ maxDepth) :
    (∃ target chain, .refused target (.cycle chain) ∈ Evaluation.notices tree replacements maxDepth key) ↔
      ∃ chain, .cyclicReference chain ∈ warnings tree ∧ ∃ x ∈ chain, Relation.ReflTransGen tree.Refers key x := by
  constructor
  · rintro ⟨target, chain, h⟩
    obtain ⟨stack, rfl, hnodup, htarget, hchain, hhead⟩ := (Evaluation.cycle_mem_notices_iff hunbound hdepth).1 h
    obtain ⟨before, after, rfl⟩ := List.append_of_mem htarget
    have hreach := reaches_of_mem hchain hhead (List.mem_append_left _ htarget)
    rw [List.append_assoc] at hchain
    obtain ⟨reported, hreported, x, hx, hway⟩ :=
      exists_reported_of_isChain hnodup.of_append_right hchain.right_of_append
    exact ⟨reported, hreported, x, hx, hreach.trans hway⟩
  · rintro ⟨chain, hreported, x, hx, hreach⟩
    obtain ⟨first, rest, rfl, -, hchain, -⟩ := reported_iff.1 hreported
    exact exists_cycle_mem_notices hunbound hdepth hchain (hreach.trans (reaches_first hchain hx))

private theorem missing_met_iff (hunbound : tree.Unbound replacements) (hdepth : tree.leafKeys.length < maxDepth)
    (hkey : (tree.raw? key).isSome) :
    (∃ target, .missing target ∈ Evaluation.notices tree replacements maxDepth key) ↔
      ∃ source target suggestions, .danglingReference source target suggestions ∈ warnings tree ∧
        Relation.ReflTransGen tree.Refers key source := by
  constructor
  · rintro ⟨target, h⟩
    obtain ⟨hraw, stack, hchain, hnodup, hhead⟩ := (Evaluation.missing_mem_notices_iff hunbound hdepth).1 h
    have hstack := Evaluation.stacked_of_isChain hchain hnodup
    obtain ⟨hstackChain, hlast⟩ := isChain_append_singleton.1 hchain
    -- The key itself has a message, so the walk has another last key but one.
    rcases List.eq_nil_or_concat stack with rfl | ⟨stack, source, rfl⟩
    · obtain rfl : target = key := Option.some.inj hhead
      rw [hraw] at hkey
      cases hkey
    · have hmentions : tree.Mentions source target := hlast source (by simp)
      refine ⟨source, target, _, danglingReference_mem_warnings_iff.2 ⟨hmentions, hraw, rfl⟩, ?_⟩
      rw [List.head?_append_of_ne_nil _ (by simp)] at hhead
      refine reaches_of_mem ?_ hhead (by simp)
      exact hstackChain.imp_of_mem_imp fun x y _ hy hmentions => ⟨hmentions, hstack.isSome y hy⟩
  · rintro ⟨source, target, suggestions, hreported, hreach⟩
    obtain ⟨hmentions, hraw, -⟩ := danglingReference_mem_warnings_iff.1 hreported
    obtain ⟨path, hpath, hnodup, hlast⟩ := exists_simple_path hreach
    refine ⟨target, (Evaluation.missing_mem_notices_iff hunbound hdepth).2 ⟨hraw, key :: path, ?_, hnodup, rfl⟩⟩
    refine isChain_append_singleton.2 ⟨hpath.imp fun _ _ h => h.1, ?_⟩
    simpa [hlast] using hmentions

/-- An evaluation without values comes back to a key if a key on a reported cycle can be reached, and comes to a key
without a message if a key with a dangling reference can be reached; from its first key it goes along each reported
cycle. -/
theorem evaluation_meets_reported (hunbound : tree.Unbound replacements) (hdepth : tree.leafKeys.length < maxDepth) :
    (∀ key, (tree.raw? key).isSome →
      ((∃ target chain, .refused target (.cycle chain) ∈ Evaluation.notices tree replacements maxDepth key) ↔
        ∃ chain, .cyclicReference chain ∈ warnings tree ∧ ∃ x ∈ chain, Relation.ReflTransGen tree.Refers key x) ∧
      ((∃ target, .missing target ∈ Evaluation.notices tree replacements maxDepth key) ↔
        ∃ source target suggestions, .danglingReference source target suggestions ∈ warnings tree ∧
          Relation.ReflTransGen tree.Refers key source)) ∧
    ∀ chain, .cyclicReference chain ∈ warnings tree → ∃ first, chain.head? = some first ∧
      .refused first (.cycle chain) ∈ Evaluation.notices tree replacements maxDepth first := by
  have hdepth' := Nat.le_of_lt hdepth
  refine ⟨fun key hkey => ⟨cycle_met_iff hunbound hdepth', missing_met_iff hunbound hdepth hkey⟩, ?_⟩
  intro chain hreported
  obtain ⟨first, rest, rfl, hrest, hchain, -⟩ := reported_iff.1 hreported
  refine ⟨first, rfl, (Evaluation.cycle_mem_notices_iff hunbound hdepth').2 ?_⟩
  have hfirst : first ∉ rest := fun hmem => String.lt_irrefl first (hrest.above first hmem)
  exact ⟨first :: rest, rfl, List.nodup_cons.2 ⟨hfirst, hrest.nodup⟩, List.mem_cons_self, hchain, rfl⟩

/-- A tree with a cycle, a reference to nothing and a name without a value. -/
theorem evaluation_meets_reported_small :
    let tree : Tree := .object [("a", .scalar "{{n}}: $t(b)"), ("b", .scalar "$t(a)$t(x)")]
    let replacements : Replacements := .ofList [("m", .text "$t(b)")]
    tree.Unbound replacements ∧ tree.leafKeys.length < 3 ∧
      (∀ key, (tree.raw? key).isSome →
        ((∃ target chain, .refused target (.cycle chain) ∈ Evaluation.notices tree replacements 3 key) ↔
          ∃ chain, .cyclicReference chain ∈ warnings tree ∧ ∃ x ∈ chain, Relation.ReflTransGen tree.Refers key x) ∧
        ((∃ target, .missing target ∈ Evaluation.notices tree replacements 3 key) ↔
          ∃ source target suggestions, .danglingReference source target suggestions ∈ warnings tree ∧
            Relation.ReflTransGen tree.Refers key source)) ∧
      ∀ chain, .cyclicReference chain ∈ warnings tree → ∃ first, chain.head? = some first ∧
        .refused first (.cycle chain) ∈ Evaluation.notices tree replacements 3 first := by
  intro tree replacements
  have hunbound : tree.Unbound replacements := by decide +kernel
  have hdepth : tree.leafKeys.length < 3 := by decide
  exact ⟨hunbound, hdepth, evaluation_meets_reported hunbound hdepth⟩

end Lint

end Phrasebook
