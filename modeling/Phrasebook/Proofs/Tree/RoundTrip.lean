import Phrasebook.Proofs.Json.Builders
import Phrasebook.Proofs.Json.ReadBack
import Phrasebook.Proofs.Members
import Phrasebook.Proofs.Tree.Structure

/-!
# Written trees are read back

The JSON text of a tree is read as the tree again, unless the tree nests too deep for the reader, which then says so
(`written_tree_read_back`).
-/

namespace Phrasebook.Tree

/-! ### Nesting -/

mutual

/-- How deep arrays and objects nest. -/
def nesting : Tree → Nat
  | object children => childrenNesting children + 1
  | array items => itemsNesting items + 1
  | scalar _ => 0

/-- How deep arrays and objects nest in any of these items. -/
def itemsNesting : List Tree → Nat
  | [] => 0
  | item :: rest => max item.nesting (itemsNesting rest)

/-- How deep arrays and objects nest in any of these children. -/
def childrenNesting : List (String × Tree) → Nat
  | [] => 0
  | (_, child) :: rest => max child.nesting (childrenNesting rest)

end

theorem nesting_array_le_iff {items : List Tree} {depth : Nat} :
    (array items).nesting ≤ depth + 1 ↔ ∀ item ∈ items, item.nesting ≤ depth := by
  rw [nesting, Nat.add_le_add_iff_right]
  induction items with
  | nil => simp [itemsNesting]
  | cons item rest ih => rw [itemsNesting, Nat.max_le, ih, List.forall_mem_cons]

theorem nesting_object_le_iff {children : List (String × Tree)} {depth : Nat} :
    (object children).nesting ≤ depth + 1 ↔ ∀ pair ∈ children, pair.2.nesting ≤ depth := by
  rw [nesting, Nat.add_le_add_iff_right]
  induction children with
  | nil => simp [childrenNesting]
  | cons first rest ih => rw [childrenNesting, Nat.max_le, ih, List.forall_mem_cons]

/-! ### Reading -/

/-- A tree is written as a string, an array or an object. -/
private theorem begins_compact (e : Json.Enclosure) (he : e.closing ∉ ['"', '[', '{']) (tree : Tree) :
    Json.Begins e tree.toJson.compact := by
  simp only [List.mem_cons, List.not_mem_nil, or_false, not_or] at he
  obtain ⟨hquote, hbracket, hbrace⟩ := he
  cases tree with
  | scalar text => exact ⟨'"', _, rfl, by decide, Ne.symm hquote⟩
  | array items => exact ⟨'[', _, by rw [toJson_array, Json.compact_array], by decide, Ne.symm hbracket⟩
  | object children => exact ⟨'{', _, by rw [toJson_object, Json.compact_object], by decide, Ne.symm hbrace⟩

section
variable {α : Type} (b : Json.Builder α)

private theorem answers_scalar (text : String) (depth : Nat) :
    Json.Answers (Json.readValue b depth) (scalar text).toJson.compact True (b.string text) := by
  refine ⟨fun _ after => ?_, fun h => absurd trivial h⟩
  have hquote : Json.isSpace '"' = false := by decide
  have hcompact : (scalar text).toJson.compact ++ after = '"' :: (text.toList.flatMap Json.escaped ++ '"' :: after) := by
    simp [toJson, Json.compact, Json.quoted]
  have hscalar : Json.readScalar b ('"' :: (text.toList.flatMap Json.escaped ++ '"' :: after)) =
      .ok (b.string text, after) := by
    rw [Json.readScalar, Json.readString_quoted]
    rfl
  rw [hcompact]
  cases depth <;> simp [Json.readValue, Json.skipSpace_cons hquote, hscalar]

/-- A written tree is read with any builder, as deep as it is allowed to nest. -/
private theorem answers_readValue (tree : Tree) (depth : Nat) :
    Json.Answers (Json.readValue b depth) tree.toJson.compact (tree.nesting ≤ depth) (tree.toJson.fold b) := by
  have hbracket : Json.isSpace '[' = false := by decide
  have hbrace : Json.isSpace '{' = false := by decide
  induction tree generalizing depth with
  | scalar text =>
    have hfits : (scalar text).nesting ≤ depth ↔ True := by simp [nesting]
    rw [hfits]
    exact answers_scalar b text depth
  | array items ih =>
    rw [toJson_array, Json.compact_array, Json.fold_array, List.map_map, List.map_map]
    cases depth with
    | zero =>
      -- Even an array without items nests too deep.
      refine ⟨fun h => absurd h (by simp [nesting]), fun _ after => ?_⟩
      simp [Json.readValue, Json.skipSpace_cons hbracket, Json.Fault.upon]
    | succ depth =>
      rw [nesting_array_le_iff]
      have hitems := Json.answers_readEnclosed (fun item hitem => ih item hitem depth)
        fun item _ => begins_compact .array (by decide) item
      refine hitems.map ['['] b.array fun rest => ?_
      simp [Json.readValue, Json.skipSpace_cons hbracket]
  | object children ih =>
    rw [toJson_object, Json.compact_object, Json.fold_object, List.map_map, List.map_map]
    cases depth with
    | zero =>
      refine ⟨fun h => absurd h (by simp [nesting]), fun _ after => ?_⟩
      simp [Json.readValue, Json.skipSpace_cons hbrace, Json.Fault.upon]
    | succ depth =>
      rw [nesting_object_le_iff]
      have hchildren := Json.answers_readEnclosed
        (fun (pair : String × Tree) hpair => Json.answers_readMember pair.1 (ih pair hpair depth))
        fun pair _ => Json.begins_memberText pair.1 pair.2.toJson.compact
      refine hchildren.map ['{'] b.object fun rest => ?_
      simp [Json.readValue, Json.skipSpace_cons hbrace]

end

/-! ### Writing and reading -/

/-- The builder of trees makes an ordered tree again of its JSON value. -/
theorem ofJson_toJson {tree : Tree} (h : tree.Ordered) : ofJson tree.toJson = tree := by
  induction tree with
  | scalar text => rfl
  | array items ih =>
    have hitems : items.map (ofJson ∘ toJson) = items := by
      refine (List.map_congr_left fun item hitem => ?_).trans (List.map_id items)
      exact ih item hitem (ordered_array_iff.1 h item hitem)
    rw [toJson_array, ofJson, Json.fold_array, List.map_map]
    exact congrArg array hitems
  | object children ih =>
    obtain ⟨hascending, hordered⟩ := ordered_object_iff.1 h
    have hchildren : children.map (Prod.map id ofJson ∘ Prod.map id toJson) = children := by
      refine (List.map_congr_left fun pair hpair => ?_).trans (List.map_id children)
      exact Prod.ext rfl (ih pair hpair (hordered pair hpair))
    rw [toJson_object, ofJson, Json.fold_object, List.map_map]
    exact congrArg object ((congrArg Members.ofPairs hchildren).trans (Members.ofPairs_of_ascending hascending))

/-- An ordered tree is read back from its JSON text, which is its text as an item with quotes around a bare text, if its
arrays and objects nest no deeper than the reader allows; else the reader refuses the text as too deep. -/
theorem written_tree_read_back {tree : Tree} (hordered : tree.Ordered) :
    (tree.compact = match tree with
      | scalar text => String.ofList (Json.quoted text.toList)
      | tree => tree.elementText) ∧
    (tree.nesting ≤ Json.depthLimit → load tree.compact = .ok tree) ∧
    (Json.depthLimit < tree.nesting → ∃ place, load tree.compact = .error ⟨⟨.tooDeep, place⟩⟩) := by
  obtain ⟨hvalue, hrefusal⟩ := answers_readValue builder tree Json.depthLimit
  refine ⟨?_, fun hfits => ?_, fun hdeep => ?_⟩
  · cases tree <;> rfl
  · have hread := hvalue hfits []
    rw [List.append_nil] at hread
    unfold load Json.read Json.readText compact
    rw [String.toList_ofList, hread]
    exact congrArg Except.ok (ofJson_toJson hordered)
  · obtain ⟨unread, hread⟩ := hrefusal (Nat.not_le.2 hdeep) []
    rw [List.append_nil] at hread
    unfold load Json.read Json.readText compact
    rw [String.toList_ofList, hread]
    exact ⟨_, rfl⟩

theorem written_tree_read_back_escapes :
    let tree : Tree := object [("", scalar ""), ("\"\\", array [scalar "\x00\t/\u2028", array [], object []]),
      ("é", scalar "😀\x7f")]
    tree.Ordered ∧ tree.nesting ≤ Json.depthLimit ∧ load tree.compact = .ok tree := by
  intro tree
  have hordered : tree.Ordered := by
    simp only [tree, Ordered, OrderedChildren, OrderedItems, Members.Ascending]
    decide
  have hnesting : tree.nesting ≤ Json.depthLimit := by decide
  exact ⟨hordered, hnesting, (written_tree_read_back hordered).2.1 hnesting⟩

end Phrasebook.Tree
