import Phrasebook.Proofs.KeyPath
import Phrasebook.Tree

/-!
# Keys of leaves

A key that has a message is listed among the keys of the leaves (`Tree.mem_leafKeys_of_raw?`): walking down by the
segments of the key collects the same prefixes as listing the leaves does.
-/

namespace Phrasebook

namespace Tree

theorem raw?_of_parse? {key : String} {path : KeyPath} (tree : Tree) (h : KeyPath.parse? key = some path) :
    tree.raw? key = (tree.find? path).bind leafText? := by
  rw [raw?, h]
  rfl

private theorem mem_of_child? {tree child : Tree} {name : String} (h : tree.child? name = some child) :
    ∃ children, tree = object children ∧ (name, child) ∈ children := by
  cases tree with
  | object children =>
    obtain ⟨before, after, rfl, -⟩ := List.lookup_eq_some_iff.1 h
    exact ⟨_, rfl, by simp⟩
  | array | scalar => cases h

private theorem mem_leafKeysBelow {key name x : String} {child : Tree} {children : List (String × Tree)}
    (hmem : (name, child) ∈ children) (hx : x ∈ child.leafKeysAt (key ++ "." ++ name)) :
    x ∈ leafKeysBelow key children := by
  induction children with
  | nil => cases hmem
  | cons first rest ih =>
    unfold leafKeysBelow
    rcases List.mem_cons.1 hmem with rfl | hmem
    · exact List.mem_append_left _ hx
    · exact List.mem_append_right _ (ih hmem)

/-- Induction on the segments: each one lengthens the key of the place where the leaves are listed. -/
private theorem mem_leafKeysAt_of_descend? {segments : List String} {tree node : Tree} (key : String)
    (h : tree.descend? segments = some node) (hleaf : node.leafText?.isSome) :
    ".".intercalate (key :: segments) ∈ tree.leafKeysAt key := by
  induction segments generalizing tree key with
  | nil =>
    obtain rfl : tree = node := Option.some.inj h
    cases tree with
    | object => cases hleaf
    | array | scalar => simp [leafKeysAt]
  | cons name rest ih =>
    obtain ⟨child, hchild, hrest⟩ := Option.bind_eq_some_iff.1 h
    obtain ⟨children, rfl, hmem⟩ := mem_of_child? hchild
    have hx := ih (key ++ "." ++ name) hrest
    rw [String.intercalate_cons_append, ← String.intercalate_cons_cons] at hx
    exact mem_leafKeysBelow hmem hx

/-- A key with a message is the key of a leaf. -/
theorem mem_leafKeys_of_raw? {tree : Tree} {key text : String} (h : tree.raw? key = some text) :
    key ∈ tree.leafKeys := by
  obtain ⟨path, hpath, h⟩ := Option.bind_eq_some_iff.1 h
  obtain ⟨node, hnode, hleaf⟩ := Option.bind_eq_some_iff.1 h
  rw [← KeyPath.text_of_parse? hpath]
  unfold find? at hnode
  unfold KeyPath.text
  rcases hsegments : path.segments with _ | ⟨name, rest⟩
  · exact absurd hsegments path.segments_ne_nil
  · rw [hsegments] at hnode
    obtain ⟨child, hchild, hrest⟩ := Option.bind_eq_some_iff.1 hnode
    obtain ⟨children, rfl, hmem⟩ := mem_of_child? hchild
    have hx := mem_leafKeysAt_of_descend? name hrest (by rw [hleaf]; rfl)
    exact List.mem_flatMap.2 ⟨(name, child), hmem, hx⟩

/-- Different keys with a message are no more than there are leaves. -/
theorem length_le_length_leafKeys {tree : Tree} {keys : List String} (hnodup : keys.Nodup)
    (h : ∀ key ∈ keys, (tree.raw? key).isSome) : keys.length ≤ tree.leafKeys.length := by
  have hsub : keys ⊆ tree.leafKeys := by
    intro key hkey
    obtain ⟨text, htext⟩ := Option.isSome_iff_exists.1 (h key hkey)
    exact mem_leafKeys_of_raw? htext
  exact List.Nodup.length_le_of_subset hnodup hsub

end Tree

end Phrasebook
