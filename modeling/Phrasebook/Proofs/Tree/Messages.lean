import Phrasebook.Proofs.Tree.LeafPaths

/-!
# Keys with a message and the ways to the leaves

A key has a message if a way to a leaf spells it with names that can be segments (`isSome_raw?_iff`).  A key that is
listed has a message and is listed once just if there is no other way to it (`forall_spells_iff`).
-/

namespace Phrasebook.Tree

variable {tree : Tree} {key : String}

/-- The names are the segments of the key. -/
structure Spells (path : List String) (key : String) : Prop where
  ne_nil : path ≠ []
  joined : ".".intercalate path = key
  isSegment : ∀ name ∈ path, KeyPath.IsSegment name

theorem Spells.unique {path other : List String} (h : Spells path key) (h' : Spells other key) : path = other := by
  have hpieces : KeyPath.pieces key = path := by
    rw [← h.joined, KeyPath.pieces_intercalate h.ne_nil fun name hname => (h.isSegment name hname).2]
  have hpieces' : KeyPath.pieces key = other := by
    rw [← h'.joined, KeyPath.pieces_intercalate h'.ne_nil fun name hname => (h'.isSegment name hname).2]
  exact hpieces.symm.trans hpieces'

theorem mem_leafPaths_of_descend? {segments : List String} {leaf : Tree} (h : tree.descend? segments = some leaf)
    (hleaf : leaf.leafText?.isSome) : segments ∈ tree.leafPaths := by
  induction segments generalizing tree with
  | nil =>
    obtain rfl : tree = leaf := Option.some.inj h
    cases tree with
    | object => cases hleaf
    | array | scalar => exact List.mem_singleton_self []
  | cons name rest ih =>
    obtain ⟨child, hchild, hrest⟩ := Option.bind_eq_some_iff.1 h
    cases tree with
    | array | scalar => cases hchild
    | object children =>
      obtain ⟨before, after, rfl, -⟩ := List.lookup_eq_some_iff.1 hchild
      rw [leafPaths_object]
      exact List.mem_flatMap.2 ⟨(name, child), by simp, List.mem_map_of_mem (ih hrest)⟩

/-- A key has a message if a way to a leaf spells it. -/
theorem isSome_raw?_iff (hordered : tree.Ordered) :
    (tree.raw? key).isSome ↔ ∃ path ∈ tree.leafPaths, Spells path key := by
  constructor
  · intro h
    obtain ⟨text, htext⟩ := Option.isSome_iff_exists.1 h
    obtain ⟨path, hpath, htext⟩ := Option.bind_eq_some_iff.1 htext
    obtain ⟨leaf, hleaf, htext⟩ := Option.bind_eq_some_iff.1 htext
    refine ⟨path.segments, mem_leafPaths_of_descend? hleaf (by rw [htext]; rfl), path.segments_ne_nil, ?_, ?_⟩
    · exact KeyPath.text_of_parse? hpath
    · exact path.isSegment_of_mem
  · rintro ⟨path, hmem, hne, rfl, hsegments⟩
    obtain ⟨keyPath, rfl⟩ := KeyPath.exists_segments_eq hne hsegments
    exact isSome_raw?_of_mem_leafPaths hordered hmem

/-! ### Keys that are listed -/

theorem exists_path_of_mem_leafKeys (h : key ∈ tree.leafKeys) :
    ∃ path ∈ tree.leafPaths, path ≠ [] ∧ ".".intercalate path = key := by
  cases tree with
  | scalar text => cases h
  | array items => cases h
  | object children =>
    rw [leafKeys_eq_map_leafPaths] at h
    obtain ⟨path, hpath, rfl⟩ := List.mem_map.1 h
    exact ⟨path, hpath, ne_nil_of_mem_leafPaths hpath, rfl⟩

/-- A key is listed for each way to it. -/
theorem count_leafKeys (children : List (String × Tree)) (key : String) : (object children).leafKeys.count key =
    ((object children).leafPaths.filter fun path => ".".intercalate path = key).length := by
  rw [leafKeys_eq_map_leafPaths, List.count, List.countP_map, List.countP_eq_length_filter]
  exact congrArg List.length (List.filter_congr fun path _ => Bool.eq_iff_iff.2 (by simp))

theorem forall_spells_iff (hordered : tree.Ordered) (hkey : key ∈ tree.leafKeys) :
    (∀ path ∈ tree.leafPaths, path ≠ [] → ".".intercalate path = key → Spells path key) ↔
      (tree.raw? key).isSome ∧ tree.leafKeys.count key = 1 := by
  obtain ⟨way, hway, hne, hjoined⟩ := exists_path_of_mem_leafKeys hkey
  cases tree with
  | scalar text => cases hkey
  | array items => cases hkey
  | object children =>
    have hmem : ∀ path, path ∈ (object children).leafPaths.filter (fun path => ".".intercalate path = key) ↔
        path ∈ (object children).leafPaths ∧ ".".intercalate path = key := by simp
    rw [isSome_raw?_iff hordered, count_leafKeys]
    constructor
    · intro h
      refine ⟨⟨way, hway, h way hway hne hjoined⟩, ?_⟩
      have hnodup := (pairwise_leafPaths hordered).nodup.filter fun path => decide (".".intercalate path = key)
      -- All ways to the key spell it, and there is one way to do that.
      have hall : ∀ path ∈ (object children).leafPaths.filter (fun path => ".".intercalate path = key), path = way := by
        intro path hpath
        obtain ⟨hpath, hjoined'⟩ := (hmem path).1 hpath
        exact (h path hpath (ne_nil_of_mem_leafPaths hpath) hjoined').unique (h way hway hne hjoined)
      have hreplicate := List.eq_replicate_of_mem hall
      rw [hreplicate, List.nodup_replicate] at hnodup
      have hpos := List.length_pos_of_mem ((hmem way).2 ⟨hway, hjoined⟩)
      omega
    · rintro ⟨⟨spelling, hspelling, hspells⟩, hone⟩ path hpath - hjoined'
      obtain ⟨only, honly⟩ := List.length_eq_one_iff.1 hone
      have hfirst := (hmem spelling).2 ⟨hspelling, hspells.joined⟩
      have hsecond := (hmem path).2 ⟨hpath, hjoined'⟩
      rw [honly, List.mem_singleton] at hfirst hsecond
      rwa [hsecond, ← hfirst]

end Phrasebook.Tree
