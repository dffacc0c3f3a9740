import Phrasebook.Tree

/-!
# The structure of trees

`Tree.induction` is the induction that proofs about trees go by: a node is settled once its children or items are.
The functions that go through a tree together with its lists of children and items are described here as functions of
one tree, so that later proofs need not follow the lists.
-/

namespace Phrasebook.Tree

/-- A node is settled once its children or items are. -/
@[elab_as_elim, induction_eliminator]
theorem induction {motive : Tree → Prop}
    (object : ∀ children, (∀ pair ∈ children, motive pair.2) → motive (.object children))
    (array : ∀ items, (∀ item ∈ items, motive item) → motive (.array items))
    (scalar : ∀ text, motive (.scalar text)) (tree : Tree) : motive tree := by
  refine @Tree.rec motive (fun children => ∀ pair ∈ children, motive pair.2) (fun items => ∀ item ∈ items, motive item)
    (fun pair => motive pair.2) object array scalar nofun ?_ nofun ?_ (fun _ _ h => h) tree
  · intro first rest hfirst hrest
    exact List.forall_mem_cons.2 ⟨hfirst, hrest⟩
  · intro first rest hfirst hrest
    exact List.forall_mem_cons.2 ⟨hfirst, hrest⟩

theorem ordered_object_iff {children : List (String × Tree)} :
    (object children).Ordered ↔ Members.Ascending children ∧ ∀ pair ∈ children, pair.2.Ordered := by
  rw [Ordered, orderedChildren_iff]

theorem ordered_array_iff {items : List Tree} : (array items).Ordered ↔ ∀ item ∈ items, item.Ordered := by
  rw [Ordered]
  induction items with
  | nil => simp [OrderedItems]
  | cons item rest ih => rw [OrderedItems, ih, List.forall_mem_cons]

theorem toJson_array (items : List Tree) : (array items).toJson = .array (items.map toJson) := by
  have hitems : itemsToJson items = items.map toJson := by
    induction items with
    | nil => rfl
    | cons item rest ih => rw [itemsToJson, ih, List.map_cons]
  rw [toJson, hitems]

theorem toJson_object (children : List (String × Tree)) :
    (object children).toJson = .object (children.map (Prod.map id toJson)) := by
  have hchildren : childrenToJson children = children.map (Prod.map id toJson) := by
    induction children with
    | nil => rfl
    | cons first rest ih => rw [childrenToJson, ih, List.map_cons, Prod.map, id]
  rw [toJson, hchildren]

theorem leafKeysAt_object (key : String) (children : List (String × Tree)) :
    (object children).leafKeysAt key = children.flatMap fun pair => pair.2.leafKeysAt (key ++ "." ++ pair.1) := by
  rw [leafKeysAt]
  induction children with
  | nil => rfl
  | cons first rest ih => rw [leafKeysBelow, ih, List.flatMap_cons]

theorem leafKeys_object (children : List (String × Tree)) :
    (object children).leafKeys = children.flatMap fun pair => pair.2.leafKeysAt pair.1 := rfl

end Phrasebook.Tree
