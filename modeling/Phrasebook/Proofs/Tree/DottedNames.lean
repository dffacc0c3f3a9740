import Phrasebook.Proofs.KeyPath
import Phrasebook.Proofs.Tree.LeafPaths

/-!
# Names with dots

A key is listed for each way to a leaf whose names make it up when they are joined by dots.  A lookup cuts the key at
its dots, so it does not go such a way if there is a dot in one of the names.  Other than for such ways, what is listed
is what is found (`mem_leafKeys_iff`).
-/

namespace Phrasebook.Tree

/-- The key is listed for a way with a dot in one of its names. -/
def HasDottedWay (tree : Tree) (key : String) : Prop :=
  ∃ path ∈ tree.leafPaths, ".".intercalate path = key ∧ ∃ name ∈ path, '.' ∈ name.toList

instance (tree : Tree) (key : String) : Decidable (tree.HasDottedWay key) :=
  inferInstanceAs (Decidable (∃ path ∈ tree.leafPaths, ".".intercalate path = key ∧ ∃ name ∈ path, '.' ∈ name.toList))

theorem not_hasDottedWay_of_everyName {tree : Tree} (h : tree.EveryName fun name => '.' ∉ name.toList) (key : String) :
    ¬ tree.HasDottedWay key := by
  rintro ⟨path, hpath, -, name, hname, hdot⟩
  exact forall_mem_of_everyName h hpath name hname hdot

theorem isSome_parse?_of_raw? {tree : Tree} {key : String} (h : (tree.raw? key).isSome) :
    (KeyPath.parse? key).isSome := by
  obtain ⟨text, htext⟩ := Option.isSome_iff_exists.1 h
  obtain ⟨path, hpath, -⟩ := Option.bind_eq_some_iff.1 htext
  rw [hpath]
  rfl

/-- Of the keys that can be looked up, those are listed that have a message and those of ways with a dot in a name. -/
theorem mem_leafKeys_iff {tree : Tree} (hordered : tree.Ordered) {key : String} (hkey : (KeyPath.parse? key).isSome) :
    key ∈ tree.leafKeys ↔ (tree.raw? key).isSome ∨ tree.HasDottedWay key := by
  constructor
  · intro hmem
    cases tree with
    | scalar text => cases hmem
    | array items => cases hmem
    | object children =>
      rw [leafKeys_eq_map_leafPaths] at hmem
      obtain ⟨path, hpath, rfl⟩ := List.mem_map.1 hmem
      by_cases hdot : ∃ name ∈ path, '.' ∈ name.toList
      · exact .inr ⟨path, hpath, rfl, hdot⟩
      · have hne : path ≠ [] := by
          rintro rfl
          exact absurd hkey (by decide)
        have hdots : ∀ name ∈ path, '.' ∉ name.toList := fun name hname hmem => hdot ⟨name, hname, hmem⟩
        obtain ⟨keyPath, hparse⟩ := Option.isSome_iff_exists.1 hkey
        have hsegments : keyPath.segments = path := by
          rw [KeyPath.segments_of_parse? hparse, KeyPath.pieces_intercalate hne hdots]
        rw [← hsegments] at hpath
        rw [← KeyPath.text_of_parse? hparse]
        exact .inl (isSome_raw?_of_mem_leafPaths hordered hpath)
  · rintro (hraw | ⟨path, hpath, rfl, name, hname, -⟩)
    · obtain ⟨text, htext⟩ := Option.isSome_iff_exists.1 hraw
      exact mem_leafKeys_of_raw? htext
    · cases tree with
      | scalar text =>
        obtain rfl := List.mem_singleton.1 hpath
        cases hname
      | array items =>
        obtain rfl := List.mem_singleton.1 hpath
        cases hname
      | object children =>
        rw [leafKeys_eq_map_leafPaths]
        exact List.mem_map_of_mem hpath

end Phrasebook.Tree
