import Phrasebook.Proofs.Lint.Cycles
import Phrasebook.Proofs.Lint.KeyOrder

/-!
# The form of the reported cycles

The chains that are reported begin and end with their smallest key, pass no other key twice and follow references that
stand in the messages (`canonicalCycle_of_reported`).  They come last, in ascending order
(`reported_cycles_are_canonical`).
-/

namespace Phrasebook

/-- A chain of references that leads from its smallest key back to it and passes every key once. -/
structure Tree.CanonicalCycle (tree : Tree) (chain : List String) : Prop where
  two_le_length : 2 ≤ chain.length
  closed : chain.head? = chain.getLast?
  nodup : chain.dropLast.Nodup
  smallest : ∀ first ∈ chain.head?, ∀ key ∈ chain, key ≠ first → first < key
  resolves : ∀ key ∈ chain, (tree.raw? key).isSome
  mentions : chain.IsChain tree.Mentions

namespace Lint

variable {tree : Tree}

private theorem isSome_of_mem_isChain {first : String} {path : List String}
    (hchain : (first :: path).IsChain tree.Refers) : ∀ key ∈ path, (tree.raw? key).isSome := by
  induction path generalizing first with
  | nil => simp
  | cons next path ih =>
    obtain ⟨hrefers, hrest⟩ := List.isChain_cons_cons.1 hchain
    intro key hkey
    rcases List.mem_cons.1 hkey with rfl | hkey
    · exact hrefers.2
    · exact ih hrest key hkey

theorem canonicalCycle_of_reported {chain : List String} (h : .cyclicReference chain ∈ warnings tree) :
    tree.CanonicalCycle chain := by
  obtain ⟨first, rest, rfl, hpath, hchain, -⟩ := reported_iff.1 h
  have hnotMem : first ∉ rest := fun hmem => absurd (hpath.above first hmem) (String.lt_irrefl first)
  constructor
  case two_le_length =>
    simp
  case closed =>
    rw [List.getLast?_concat]
    rfl
  case nodup =>
    rw [List.dropLast_concat]
    exact List.nodup_cons.2 ⟨hnotMem, hpath.nodup⟩
  case smallest =>
    intro start hstart key hkey hne
    obtain rfl : first = start := by simpa using hstart
    have hmem : key ∈ rest := by simpa [hne] using hkey
    exact hpath.above key hmem
  case resolves =>
    have htargets := isSome_of_mem_isChain hchain
    intro key hkey
    rcases List.mem_cons.1 hkey with rfl | hkey
    · exact htargets key (by simp)
    · exact htargets key hkey
  case mentions =>
    exact hchain.imp fun _ _ hrefers => hrefers.1

/-- Each reported cycle is real and canonical.  The cycles come after all other warnings, in ascending order and each
once.  The search for them, which has no bound on the length of its paths, comes to an end from every key. -/
theorem reported_cycles_are_canonical (tree : Tree) :
    (∀ chain, .cyclicReference chain ∈ warnings tree → tree.CanonicalCycle chain) ∧
      (∃ (others : List Warning) (chains : List (List String)),
        warnings tree = others ++ chains.map .cyclicReference ∧
        (∀ warning ∈ others, ∀ chain, warning ≠ .cyclicReference chain) ∧
        chains.Pairwise (· < ·) ∧ chains.Nodup) ∧
      ∀ start, ∃ after, Follows (graph tree) start [start] (successors (graph tree) start) {} after ∧
        (∀ other, Follows (graph tree) start [start] (successors (graph tree) start) {} other → other = after) ∧
        cyclesFrom (graph tree) start = after.found := by
  refine ⟨fun chain h => canonicalCycle_of_reported h, ?_, fun start => ?_⟩
  · refine ⟨tree.leafKeys.flatMap (keyWarnings tree), cycles (graph tree), rfl, ?_, pairwise_cycles _, nodup_cycles _⟩
    rintro warning hwarning chain rfl
    obtain ⟨key, -, hmem⟩ := List.mem_flatMap.1 hwarning
    have hcycle := (key_of_mem_keyWarnings hmem).2
    simp [Warning.isCycle] at hcycle
  · refine ⟨_, follows_iff.2 rfl, fun other hother => follows_iff.1 hother, rfl⟩

end Lint

end Phrasebook
