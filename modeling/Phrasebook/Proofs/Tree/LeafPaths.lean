import Mathlib.Data.List.Nodup
import Phrasebook.Proofs.Members
import Phrasebook.Proofs.Tree.LeafKeys
import Phrasebook.Proofs.Tree.Structure

/-!
# The ways to the leaves

The keys of the leaves are the ways from the root to the leaves, with dots between the names
(`leafKeysAt_eq_map_leafPaths`).  In an ordered tree the ways ascend (`pairwise_leafPaths`) and each leads to a leaf
(`exists_leaf_of_mem_leafPaths`).  A key has a message only if it is listed, and if all names can be segments of keys,
the keys that are listed are those with a message, each listed once (`leafKeys_are_messages`).
-/

namespace Phrasebook.Tree

mutual

/-- The names on the way to each leaf, in the order of the tree. -/
def leafPaths : Tree → List (List String)
  | object children => leafPathsBelow children
  | array _ => [[]]
  | scalar _ => [[]]

/-- The names on the way to each leaf below these children. -/
def leafPathsBelow : List (String × Tree) → List (List String)
  | [] => []
  | (name, child) :: rest => child.leafPaths.map (name :: ·) ++ leafPathsBelow rest

end

theorem leafPaths_object (children : List (String × Tree)) :
    (object children).leafPaths = children.flatMap fun pair => pair.2.leafPaths.map (pair.1 :: ·) := by
  rw [leafPaths]
  induction children with
  | nil => rfl
  | cons first rest ih => rw [leafPathsBelow, ih, List.flatMap_cons]

/-- The keys of the leaves below a place are the names on the way there. -/
theorem leafKeysAt_eq_map_leafPaths (tree : Tree) (key : String) :
    tree.leafKeysAt key = tree.leafPaths.map fun path => ".".intercalate (key :: path) := by
  induction tree generalizing key with
  | scalar text => simp [leafKeysAt, leafPaths]
  | array items ih => simp [leafKeysAt, leafPaths]
  | object children ih =>
    rw [leafKeysAt_object, leafPaths_object, List.map_flatMap]
    refine List.flatMap_congr fun pair hpair => ?_
    rw [ih pair hpair, List.map_map]
    refine List.map_congr_left fun path _ => ?_
    rw [String.intercalate_cons_append, ← String.intercalate_cons_cons]
    rfl

theorem leafKeys_eq_map_leafPaths (children : List (String × Tree)) :
    (object children).leafKeys = (object children).leafPaths.map ".".intercalate := by
  rw [leafKeys_object, leafPaths_object, List.map_flatMap]
  refine List.flatMap_congr fun pair _ => ?_
  rw [leafKeysAt_eq_map_leafPaths, List.map_map]
  rfl

/-- The names of siblings ascend, hence the ways do. -/
theorem pairwise_leafPaths {tree : Tree} (h : tree.Ordered) : tree.leafPaths.Pairwise (· < ·) := by
  induction tree with
  | scalar text => exact List.pairwise_singleton _ _
  | array items ih => exact List.pairwise_singleton _ _
  | object children ih =>
    obtain ⟨hascending, hordered⟩ := ordered_object_iff.1 h
    rw [leafPaths_object, List.pairwise_flatMap]
    constructor
    · intro pair hpair
      rw [List.pairwise_map]
      exact (ih pair hpair (hordered pair hpair)).imp fun hlt => List.cons_lt_cons_iff.2 (.inr ⟨rfl, hlt⟩)
    · refine hascending.imp fun hlt path hpath other hother => ?_
      obtain ⟨rest, -, rfl⟩ := List.mem_map.1 hpath
      obtain ⟨rest', -, rfl⟩ := List.mem_map.1 hother
      exact List.cons_lt_cons_iff.2 (.inl hlt)

theorem exists_leaf_of_mem_leafPaths {tree : Tree} (h : tree.Ordered) {path : List String}
    (hpath : path ∈ tree.leafPaths) : ∃ leaf, tree.descend? path = some leaf ∧ leaf.leafText?.isSome := by
  induction tree generalizing path with
  | scalar text =>
    obtain rfl := List.mem_singleton.1 hpath
    exact ⟨_, rfl, rfl⟩
  | array items ih =>
    obtain rfl := List.mem_singleton.1 hpath
    exact ⟨_, rfl, rfl⟩
  | object children ih =>
    obtain ⟨hascending, hordered⟩ := ordered_object_iff.1 h
    rw [leafPaths_object] at hpath
    obtain ⟨pair, hpair, hpath⟩ := List.mem_flatMap.1 hpath
    obtain ⟨rest, hrest, rfl⟩ := List.mem_map.1 hpath
    obtain ⟨leaf, hleaf, hmessage⟩ := ih pair hpair (hordered pair hpair) hrest
    have hchild : (object children).child? pair.1 = some pair.2 := Members.get?_of_mem hascending hpair
    exact ⟨leaf, by rw [descend?, hchild, Option.bind_some, hleaf], hmessage⟩

theorem isSome_raw?_of_mem_leafPaths {tree : Tree} (h : tree.Ordered) {path : KeyPath}
    (hpath : path.segments ∈ tree.leafPaths) : (tree.raw? path.text).isSome := by
  obtain ⟨leaf, hleaf, hmessage⟩ := exists_leaf_of_mem_leafPaths h hpath
  have hfind : tree.find? path = some leaf := hleaf
  rwa [raw?_of_parse? tree (KeyPath.parse?_text path), hfind]

theorem ne_nil_of_mem_leafPaths {children : List (String × Tree)} {path : List String}
    (h : path ∈ (object children).leafPaths) : path ≠ [] := by
  rw [leafPaths_object] at h
  obtain ⟨pair, -, h⟩ := List.mem_flatMap.1 h
  obtain ⟨rest, -, rfl⟩ := List.mem_map.1 h
  exact List.cons_ne_nil _ _

/-! ### Names that are segments -/

mutual

/-- The names of all objects have a property, those of objects inside arrays included. -/
def EveryName (p : String → Prop) : Tree → Prop
  | object children => EveryNameBelow p children
  | array items => EveryNameIn p items
  | scalar _ => True

/-- The names of these children, and all names below them, have a property. -/
def EveryNameBelow (p : String → Prop) : List (String × Tree) → Prop
  | [] => True
  | (name, child) :: rest => p name ∧ child.EveryName p ∧ EveryNameBelow p rest

/-- All names in these items have a property. -/
def EveryNameIn (p : String → Prop) : List Tree → Prop
  | [] => True
  | item :: rest => item.EveryName p ∧ EveryNameIn p rest

end

theorem everyName_object_iff {p : String → Prop} {children : List (String × Tree)} :
    (object children).EveryName p ↔ ∀ pair ∈ children, p pair.1 ∧ pair.2.EveryName p := by
  rw [EveryName]
  induction children with
  | nil => simp [EveryNameBelow]
  | cons first rest ih => rw [EveryNameBelow, ih, List.forall_mem_cons, and_assoc]

theorem forall_mem_of_everyName {p : String → Prop} {tree : Tree} (h : tree.EveryName p) {path : List String}
    (hpath : path ∈ tree.leafPaths) : ∀ name ∈ path, p name := by
  induction tree generalizing path with
  | scalar text =>
    obtain rfl := List.mem_singleton.1 hpath
    exact nofun
  | array items ih =>
    obtain rfl := List.mem_singleton.1 hpath
    exact nofun
  | object children ih =>
    rw [leafPaths_object] at hpath
    obtain ⟨pair, hpair, hpath⟩ := List.mem_flatMap.1 hpath
    obtain ⟨rest, hrest, rfl⟩ := List.mem_map.1 hpath
    obtain ⟨hname, hbelow⟩ := everyName_object_iff.1 h pair hpair
    exact List.forall_mem_cons.2 ⟨hname, ih pair hpair hbelow hrest⟩

/-- The way to a leaf below an object, if its names are segments, as a key path. -/
private theorem exists_keyPath {children : List (String × Tree)} (h : (object children).EveryName KeyPath.IsSegment)
    {path : List String} (hpath : path ∈ (object children).leafPaths) : ∃ keyPath : KeyPath, keyPath.segments = path :=
  KeyPath.exists_segments_eq (ne_nil_of_mem_leafPaths hpath) (forall_mem_of_everyName h hpath)

private theorem isSome_raw?_of_mem_leafKeys {tree : Tree} (hordered : tree.Ordered)
    (hnames : tree.EveryName KeyPath.IsSegment) {key : String} (hkey : key ∈ tree.leafKeys) :
    (tree.raw? key).isSome := by
  cases tree with
  | scalar text => cases hkey
  | array items => cases hkey
  | object children =>
    rw [leafKeys_eq_map_leafPaths] at hkey
    obtain ⟨path, hpath, rfl⟩ := List.mem_map.1 hkey
    obtain ⟨keyPath, rfl⟩ := exists_keyPath hnames hpath
    exact isSome_raw?_of_mem_leafPaths hordered hpath

private theorem nodup_leafKeys {tree : Tree} (hordered : tree.Ordered)
    (hnames : tree.EveryName KeyPath.IsSegment) : tree.leafKeys.Nodup := by
  cases tree with
  | scalar text => exact List.nodup_nil
  | array items => exact List.nodup_nil
  | object children =>
    rw [leafKeys_eq_map_leafPaths]
    -- Different ways have different texts, as there is no dot in a name.
    refine List.Nodup.map_on (fun path hpath other hother htext => ?_) (pairwise_leafPaths hordered).nodup
    obtain ⟨keyPath, rfl⟩ := exists_keyPath hnames hpath
    obtain ⟨keyPath', rfl⟩ := exists_keyPath hnames hother
    exact congrArg KeyPath.segments (KeyPath.eq_of_text_eq htext)

/-- A key with a message is the key of a leaf.  If the names of an ordered tree can be segments of keys, every key of a
leaf has a message, and no key is listed twice. -/
theorem leafKeys_are_messages (tree : Tree) :
    (∀ key, (tree.raw? key).isSome → key ∈ tree.leafKeys) ∧
      (tree.Ordered → tree.EveryName KeyPath.IsSegment →
        (∀ key ∈ tree.leafKeys, (tree.raw? key).isSome) ∧ tree.leafKeys.Nodup) := by
  refine ⟨fun key hkey => ?_, fun hordered hnames => ⟨fun key hkey => ?_, ?_⟩⟩
  · obtain ⟨text, htext⟩ := Option.isSome_iff_exists.1 hkey
    exact mem_leafKeys_of_raw? htext
  · exact isSome_raw?_of_mem_leafKeys hordered hnames hkey
  · exact nodup_leafKeys hordered hnames

theorem leafKeys_are_messages_nested :
    let tree : Tree := object
      [("a", object [("b", array [object [("c", scalar "x")]]), ("b!", scalar "y")]), ("é", object [])]
    ((tree.raw? "a.b").isSome ∧ "a.b" ∈ tree.leafKeys) ∧ tree.Ordered ∧ tree.EveryName KeyPath.IsSegment ∧
      (∀ key ∈ tree.leafKeys, (tree.raw? key).isSome) ∧ tree.leafKeys.Nodup := by
  intro tree
  have hraw : (tree.raw? "a.b").isSome := by decide +kernel
  have hordered : tree.Ordered := by
    simp only [tree, Ordered, OrderedChildren, OrderedItems, Members.Ascending]
    decide
  have hnames : tree.EveryName KeyPath.IsSegment := by
    simp only [tree, EveryName, EveryNameBelow, EveryNameIn]
    decide
  obtain ⟨hlisted, hmessages⟩ := leafKeys_are_messages tree
  exact ⟨⟨hraw, hlisted "a.b" hraw⟩, hordered, hnames, hmessages hordered hnames⟩

end Phrasebook.Tree
