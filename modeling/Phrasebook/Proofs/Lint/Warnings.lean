import Mathlib.Data.List.Count
import Phrasebook.Proofs.Lint.Graph

/-!
# What is warned of

A dangling reference is reported where a message mentions a key without a message
(`danglingReference_mem_warnings_iff`), an unusable directive where one stands in a message
(`unsupportedPluralForms_mem_warnings_iff`, `invalidFormatSpec_mem_warnings_iff`).  The cycles of the graph are
reported (`cyclicReference_mem_warnings_iff`), each of them once (`count_cyclicReference_le_one`).
-/

namespace Phrasebook

namespace Lint

/-! ### Cycles -/

theorem mem_insertChain {chain first : List String} {chains : List (List String)} :
    chain ∈ insertChain first chains ↔ chain = first ∨ chain ∈ chains := by
  induction chains with
  | nil => simp [insertChain]
  | cons other rest ih =>
    unfold insertChain
    split
    · simp
    · split
      · next heq => simp [heq]
      · simp only [List.mem_cons, ih]
        exact or_left_comm

private theorem pairwise_insertChain {chain : List String} {chains : List (List String)}
    (h : chains.Pairwise (· < ·)) : (insertChain chain chains).Pairwise (· < ·) := by
  induction chains with
  | nil => simp [insertChain]
  | cons other rest ih =>
    obtain ⟨hother, hrest⟩ := List.pairwise_cons.1 h
    unfold insertChain
    split
    · next hlt =>
      refine List.pairwise_cons.2 ⟨fun x hx => ?_, h⟩
      rcases List.mem_cons.1 hx with rfl | hx
      · exact hlt
      · exact List.lt_trans hlt (hother x hx)
    · split
      · exact h
      · next hlt hne =>
        refine List.pairwise_cons.2 ⟨fun x hx => ?_, ih hrest⟩
        rcases mem_insertChain.1 hx with rfl | hx
        · by_contra hge
          exact hne (List.le_antisymm (List.not_lt.1 hge) (List.not_lt.1 hlt))
        · exact hother x hx

private theorem mem_foldr_insertChain {chain : List String} {chains : List (List String)} :
    chain ∈ chains.foldr insertChain [] ↔ chain ∈ chains := by
  induction chains with
  | nil => rfl
  | cons other chains ih => rw [List.foldr_cons, mem_insertChain, ih, List.mem_cons]

theorem pairwise_cycles (graph : Graph) : (cycles graph).Pairwise (· < ·) := by
  have hpairwise (chains : List (List String)) : (chains.foldr insertChain []).Pairwise (· < ·) := by
    induction chains with
    | nil => exact List.Pairwise.nil
    | cons chain chains ih => exact pairwise_insertChain ih
  exact hpairwise _

theorem nodup_cycles (graph : Graph) : (cycles graph).Nodup := by
  refine (pairwise_cycles graph).imp ?_
  rintro chain _ hlt rfl
  exact List.lt_irrefl chain hlt

theorem mem_cycles_iff {graph : Graph} {chain : List String} :
    chain ∈ cycles graph ↔ ∃ first, chain ∈ cyclesFrom graph first := by
  have hmem : chain ∈ cycles graph ↔ ∃ entry ∈ graph, chain ∈ cyclesFrom graph entry.1 := by
    unfold cycles
    rw [mem_foldr_insertChain, List.mem_flatMap]
  rw [hmem]
  constructor
  · rintro ⟨entry, -, h⟩
    exact ⟨entry.1, h⟩
  · rintro ⟨first, h⟩
    -- The search does not leave a key that is not in the graph.
    obtain ⟨path, hgoes, hlast, -⟩ := mem_cyclesFrom_iff.1 h
    cases hget : Members.get? graph first with
    | none =>
      have hnil : successors graph first = [] := by
        unfold successors
        rw [hget]
        rfl
      rw [hnil] at hgoes hlast
      rcases path with _ | ⟨key, path⟩
      · cases hlast
      · obtain ⟨before, after, hsplit, -⟩ := hgoes
        simp at hsplit
    | some targets =>
      obtain ⟨before, after, hsplit, -⟩ := List.lookup_eq_some_iff.1 hget
      exact ⟨(first, targets), by simp [hsplit], h⟩

/-! ### Messages -/

variable {tree : Tree}

theorem placeholderWarning?_eq_some {key : String} {segment : Segment} {warning : Warning}
    (h : placeholderWarning? key segment = some warning) :
    (∃ name count, warning = .unsupportedPluralForms key name count) ∨
      ∃ name spec error, warning = .invalidFormatSpec key name spec error := by
  unfold placeholderWarning? at h
  split at h
  · dsimp only at h
    split at h
    · cases h
    · exact .inl ⟨_, _, (Option.some.inj h).symm⟩
  · split at h
    · cases h
    · exact .inr ⟨_, _, _, (Option.some.inj h).symm⟩
  · cases h

theorem referenceWarning?_eq_some {key target : String} {warning : Warning} :
    referenceWarning? tree key target = some warning ↔ tree.raw? target = none ∧
      warning = .danglingReference key target (Suggestion.suggest target tree.leafKeys) := by
  unfold referenceWarning?
  cases tree.raw? target with
  | none => simp [eq_comm]
  | some text => simp

theorem cyclicReference_notMem_messageWarnings (key text : String) (chain : List String) :
    .cyclicReference chain ∉ messageWarnings tree key text := by
  intro h
  rcases List.mem_append.1 h with h | h
  · obtain ⟨segment, -, hwarning⟩ := List.mem_filterMap.1 h
    rcases placeholderWarning?_eq_some hwarning with ⟨_, _, heq⟩ | ⟨_, _, _, heq⟩ <;> cases heq
  · obtain ⟨target, -, hwarning⟩ := List.mem_filterMap.1 h
    cases (referenceWarning?_eq_some.1 hwarning).2

theorem danglingReference_mem_messageWarnings_iff {key text source target : String} {suggestions : List String} :
    .danglingReference source target suggestions ∈ messageWarnings tree key text ↔
      target ∈ targets text ∧ tree.raw? target = none ∧ source = key ∧
        suggestions = Suggestion.suggest target tree.leafKeys := by
  unfold messageWarnings
  rw [List.mem_append, List.mem_filterMap, List.mem_filterMap]
  constructor
  · rintro (⟨segment, -, hwarning⟩ | ⟨other, hmem, hwarning⟩)
    · rcases placeholderWarning?_eq_some hwarning with ⟨_, _, heq⟩ | ⟨_, _, _, heq⟩ <;> cases heq
    · obtain ⟨hraw, heq⟩ := referenceWarning?_eq_some.1 hwarning
      cases heq
      exact ⟨hmem, hraw, rfl, rfl⟩
  · rintro ⟨hmem, hraw, rfl, rfl⟩
    exact .inr ⟨target, hmem, referenceWarning?_eq_some.2 ⟨hraw, rfl⟩⟩

theorem mem_keyWarnings_iff {key : String} {warning : Warning} :
    warning ∈ keyWarnings tree key ↔ ∃ text, tree.raw? key = some text ∧ warning ∈ messageWarnings tree key text := by
  unfold keyWarnings
  cases tree.raw? key with
  | none => simp
  | some text => simp

/-! ### The whole tree -/

/-- What is wrong with the messages by themselves; a key with a message is the key of a leaf. -/
private theorem mem_flatMap_keyWarnings_iff {warning : Warning} :
    warning ∈ tree.leafKeys.flatMap (keyWarnings tree) ↔
      ∃ key text, tree.raw? key = some text ∧ warning ∈ messageWarnings tree key text := by
  rw [List.mem_flatMap]
  constructor
  · rintro ⟨key, -, h⟩
    exact ⟨key, mem_keyWarnings_iff.1 h⟩
  · rintro ⟨key, text, hraw, h⟩
    exact ⟨key, Tree.mem_leafKeys_of_raw? hraw, mem_keyWarnings_iff.2 ⟨text, hraw, h⟩⟩

private theorem cyclicReference_notMem_flatMap (tree : Tree) (chain : List String) :
    .cyclicReference chain ∉ tree.leafKeys.flatMap (keyWarnings tree) := by
  intro h
  obtain ⟨key, text, -, h⟩ := mem_flatMap_keyWarnings_iff.1 h
  exact cyclicReference_notMem_messageWarnings key text chain h

theorem cyclicReference_mem_warnings_iff {chain : List String} :
    .cyclicReference chain ∈ warnings tree ↔ chain ∈ cycles (graph tree) := by
  unfold warnings
  rw [List.mem_append, or_iff_right (cyclicReference_notMem_flatMap tree chain)]
  simp

/-- No cycle is reported twice. -/
theorem count_cyclicReference_le_one (tree : Tree) (chain : List String) :
    (warnings tree).count (.cyclicReference chain) ≤ 1 := by
  have hinjective : Function.Injective Warning.cyclicReference := fun _ _ h => Warning.cyclicReference.inj h
  unfold warnings
  rw [List.count_append, List.count_eq_zero.2 (cyclicReference_notMem_flatMap tree chain), Nat.zero_add,
    List.count_map_of_injective _ _ hinjective]
  exact List.nodup_iff_count_le_one.1 (nodup_cycles (graph tree)) chain

/-- A dangling reference is reported where a message mentions a key without a message. -/
theorem danglingReference_mem_warnings_iff {source target : String} {suggestions : List String} :
    .danglingReference source target suggestions ∈ warnings tree ↔
      tree.Mentions source target ∧ tree.raw? target = none ∧
        suggestions = Suggestion.suggest target tree.leafKeys := by
  have hcycles : .danglingReference source target suggestions ∉ (cycles (graph tree)).map Warning.cyclicReference := by
    simp
  unfold warnings
  rw [List.mem_append, or_iff_left hcycles, mem_flatMap_keyWarnings_iff]
  constructor
  · rintro ⟨key, text, hraw, h⟩
    obtain ⟨htarget, hnone, rfl, rfl⟩ := danglingReference_mem_messageWarnings_iff.1 h
    exact ⟨⟨text, hraw, mem_targets_iff.1 htarget⟩, hnone, rfl⟩
  · rintro ⟨⟨text, hraw, hmentions⟩, hnone, rfl⟩
    exact ⟨source, text, hraw, danglingReference_mem_messageWarnings_iff.2
      ⟨mem_targets_iff.2 hmentions, hnone, rfl, rfl⟩⟩

/-! ### Directives -/

/-- The warnings that are neither of a reference nor of a cycle are those of the placeholders. -/
private theorem mem_warnings_iff_of_placeholder {warning : Warning}
    (hreference : ∀ key target suggestions, warning ≠ .danglingReference key target suggestions)
    (hcycle : ∀ chain, warning ≠ .cyclicReference chain) :
    warning ∈ warnings tree ↔ ∃ key text, tree.raw? key = some text ∧
      ∃ segment ∈ Template.placeholders text, placeholderWarning? key segment = some warning := by
  have hcycles : warning ∉ (cycles (graph tree)).map Warning.cyclicReference := by
    rw [List.mem_map]
    rintro ⟨chain, -, heq⟩
    exact hcycle chain heq.symm
  have hmessage (key text : String) : warning ∈ messageWarnings tree key text ↔
      ∃ segment ∈ Template.placeholders text, placeholderWarning? key segment = some warning := by
    have hreferences : warning ∉ (targets text).filterMap (referenceWarning? tree key) := by
      rw [List.mem_filterMap]
      rintro ⟨target, -, h⟩
      exact hreference _ _ _ (referenceWarning?_eq_some.1 h).2
    unfold messageWarnings
    rw [List.mem_append, or_iff_left hreferences, List.mem_filterMap]
  unfold warnings
  rw [List.mem_append, or_iff_left hcycles, mem_flatMap_keyWarnings_iff]
  simp only [hmessage]

private theorem placeholderWarning?_eq_unsupportedPluralForms {key other name : String} {count : Nat}
    {segment : Segment} :
    placeholderWarning? other segment = some (.unsupportedPluralForms key name count) ↔
      other = key ∧ ∃ raw forms, segment = .directive raw (.plural name forms) ∧
        count = (Plural.forms forms).length ∧ Plural.isSupported count = false := by
  constructor
  · intro h
    unfold placeholderWarning? at h
    split at h
    · dsimp only at h
      split at h
      · cases h
      · next hcount =>
        cases h
        exact ⟨rfl, _, _, rfl, rfl, by simpa using hcount⟩
    · split at h <;> cases h
    · cases h
  · rintro ⟨rfl, raw, forms, rfl, rfl, hcount⟩
    simp [placeholderWarning?, hcount]

private theorem placeholderWarning?_eq_invalidFormatSpec {key other name spec : String} {error : Format.Error}
    {segment : Segment} :
    placeholderWarning? other segment = some (.invalidFormatSpec key name spec error) ↔
      other = key ∧ ∃ raw, segment = .directive raw (.format name spec) ∧ Format.validate spec = .error error := by
  constructor
  · intro h
    unfold placeholderWarning? at h
    split at h
    · dsimp only at h
      split at h <;> cases h
    · split at h
      · cases h
      · next herror =>
        cases h
        exact ⟨rfl, _, rfl, herror⟩
    · cases h
  · rintro ⟨rfl, raw, rfl, herror⟩
    simp [placeholderWarning?, herror]

/-- A plural directive is reported if there is no rule for its number of forms. -/
theorem unsupportedPluralForms_mem_warnings_iff {key name : String} {count : Nat} :
    .unsupportedPluralForms key name count ∈ warnings tree ↔ ∃ text raw forms, tree.raw? key = some text ∧
      .directive raw (.plural name forms) ∈ Template.placeholders text ∧
        count = (Plural.forms forms).length ∧ Plural.isSupported count = false := by
  rw [mem_warnings_iff_of_placeholder (by simp) (by simp)]
  simp only [placeholderWarning?_eq_unsupportedPluralForms]
  constructor
  · rintro ⟨_, text, hraw, _, hmem, rfl, raw, forms, rfl, hcount⟩
    exact ⟨text, raw, forms, hraw, hmem, hcount⟩
  · rintro ⟨text, raw, forms, hraw, hmem, hcount⟩
    exact ⟨key, text, hraw, _, hmem, rfl, raw, forms, rfl, hcount⟩

/-- A format directive is reported if its spec is not valid. -/
theorem invalidFormatSpec_mem_warnings_iff {key name spec : String} {error : Format.Error} :
    .invalidFormatSpec key name spec error ∈ warnings tree ↔ ∃ text raw, tree.raw? key = some text ∧
      .directive raw (.format name spec) ∈ Template.placeholders text ∧ Format.validate spec = .error error := by
  rw [mem_warnings_iff_of_placeholder (by simp) (by simp)]
  simp only [placeholderWarning?_eq_invalidFormatSpec]
  constructor
  · rintro ⟨_, text, hraw, _, hmem, rfl, raw, rfl, herror⟩
    exact ⟨text, raw, hraw, hmem, herror⟩
  · rintro ⟨text, raw, hraw, hmem, herror⟩
    exact ⟨key, text, hraw, _, hmem, rfl, raw, rfl, herror⟩

end Lint

end Phrasebook
