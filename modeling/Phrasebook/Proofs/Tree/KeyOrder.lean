import Mathlib.Data.String.Basic
import Phrasebook.Proofs.Tree.LeafPaths

/-!
# The order of the keys of leaves

Siblings stand in the order of their names, but their keys need not be in order: below `a` there may be the key `a.b`,
which comes after the name `a-c` of a later sibling, as the dot comes after the hyphen.  `Tree.DotsFirst` says that this
does not happen, and then and only then the keys of an ordered tree ascend (`pairwise_leafKeys_iff`).
-/

namespace Phrasebook

/-! ### Texts with a common beginning -/

private theorem list_append_lt_append_iff (before s t : List Char) : before ++ s < before ++ t ↔ s < t := by
  induction before with
  | nil => rfl
  | cons c before ih => simpa [List.cons_lt_cons_iff] using ih

private theorem append_lt_append_iff (before s t : String) : before ++ s < before ++ t ↔ s < t := by
  rw [String.lt_iff, String.lt_iff, String.toList_append, String.toList_append, list_append_lt_append_iff]

private theorem dot_append_lt_iff (s t : String) (c : Char) :
    "." ++ s < String.singleton c ++ t ↔ '.' < c ∨ '.' = c ∧ s < t := by
  rw [String.lt_iff, String.lt_iff, String.toList_append, String.toList_append, String.toList_singleton]
  exact List.cons_lt_cons_iff

/-- Texts that part before the one ends keep their order whatever follows them. -/
private theorem append_lt_append_of_not_prefix {s t : List Char} (h : s < t) (hbegins : ¬ s <+: t) (s' t' : List Char) :
    s ++ s' < t ++ t' := by
  induction s generalizing t with
  | nil => exact absurd List.nil_prefix hbegins
  | cons c s ih =>
    cases t with
    | nil => cases h
    | cons d t =>
      rcases List.cons_lt_cons_iff.1 h with hlt | ⟨rfl, hlt⟩
      · exact List.cons_lt_cons_iff.2 (.inl hlt)
      · have hrest : ¬ s <+: t := fun hrest => hbegins (List.cons_prefix_cons.2 ⟨rfl, hrest⟩)
        exact List.cons_lt_cons_iff.2 (.inr ⟨rfl, ih hlt hrest⟩)

namespace Tree

/-! ### Keys at a place -/

/-- The key of the place stands before the keys of the leaves there. -/
theorem leafKeysAt_append (tree : Tree) (before key : String) :
    tree.leafKeysAt (before ++ key) = (tree.leafKeysAt key).map (before ++ ·) := by
  rw [leafKeysAt_eq_map_leafPaths, leafKeysAt_eq_map_leafPaths, List.map_map]
  exact List.map_congr_left fun path _ => String.intercalate_cons_append

theorem leafKeysAt_eq (tree : Tree) (key : String) : tree.leafKeysAt key = (tree.leafKeysAt "").map (key ++ ·) := by
  rw [← leafKeysAt_append, String.append_empty]

/-- A leaf has the key of its place, and the keys below a place go on with a dot. -/
theorem leafKeysAt_empty (tree : Tree) :
    tree.leafKeysAt "" = [""] ∧ tree.leafKeys = [] ∨ tree.leafKeysAt "" = tree.leafKeys.map ("." ++ ·) := by
  cases tree with
  | scalar text => exact .inl ⟨rfl, rfl⟩
  | array items => exact .inl ⟨rfl, rfl⟩
  | object children =>
    refine .inr ?_
    rw [leafKeysAt_object, leafKeys_object, List.map_flatMap]
    exact List.flatMap_congr fun pair _ => leafKeysAt_append pair.2 "." pair.1

/-- The keys at a place ascend if those below the root do. -/
private theorem pairwise_leafKeysAt_iff (tree : Tree) (key : String) :
    (tree.leafKeysAt key).Pairwise (· < ·) ↔ tree.leafKeys.Pairwise (· < ·) := by
  rw [leafKeysAt_eq, List.pairwise_map]
  simp only [append_lt_append_iff]
  rcases leafKeysAt_empty tree with ⟨hself, hnone⟩ | hbelow
  · simp [hself, hnone]
  · rw [hbelow, List.pairwise_map]
    simp only [append_lt_append_iff]

/-! ### Siblings -/

/-- Where the name of the second sibling goes on after that of the first, which has leaves below it, it goes on with a
character after the dot; or with a dot, and the keys behind the common beginning and the dot are in order. -/
def DotFirst (first second : String × Tree) : Prop :=
  ∀ c rest, second.1.toList = first.1.toList ++ c :: rest → ∀ key ∈ first.2.leafKeys,
    ∀ other ∈ second.2.leafKeysAt (String.ofList rest), '.' < c ∨ '.' = c ∧ key < other

private theorem forall_lt_append_iff (tree : Tree) (c : Char) (other : String) :
    (∀ key ∈ tree.leafKeysAt "", key < String.singleton c ++ other) ↔
      ∀ key ∈ tree.leafKeys, '.' < c ∨ '.' = c ∧ key < other := by
  rcases leafKeysAt_empty tree with ⟨hself, hnone⟩ | hbelow
  · have hlt : "" < String.singleton c ++ other := String.lt_iff.2 (by simp)
    rw [hself, hnone]
    exact iff_of_true (List.forall_mem_singleton.2 hlt) nofun
  · simp only [hbelow, List.forall_mem_map, dot_append_lt_iff]

/-- The keys of the first sibling come before those of the second one: only where the one name goes on after the other
does it matter what stands behind the names. -/
private theorem forall_lt_iff {first second : String × Tree} (h : first.1 < second.1) :
    (∀ key ∈ first.2.leafKeysAt first.1, ∀ other ∈ second.2.leafKeysAt second.1, key < other) ↔
      DotFirst first second := by
  unfold DotFirst
  by_cases hbegins : first.1.toList <+: second.1.toList
  · obtain ⟨tail, htail⟩ := hbegins
    cases tail with
    | nil =>
      have heq : first.1 = second.1 := String.toList_inj.1 (by simpa using htail)
      exact absurd (heq ▸ h) (String.lt_irrefl _)
    | cons c rest =>
      have hsecond : second.1 = first.1 ++ (String.singleton c ++ String.ofList rest) :=
        String.toList_inj.1 (by simp [← htail])
      have hgoes (c' : Char) (rest' : List Char) :
          second.1.toList = first.1.toList ++ c' :: rest' ↔ c = c' ∧ rest = rest' := by
        rw [← htail, List.append_cancel_left_eq, List.cons.injEq]
      simp only [hgoes, and_imp, forall_eq', forall_apply_eq_imp_iff]
      rw [leafKeysAt_eq first.2, hsecond, leafKeysAt_append, leafKeysAt_append]
      simp only [List.forall_mem_map, append_lt_append_iff]
      refine forall₂_comm.trans (Iff.trans ?_ forall₂_comm)
      exact forall₂_congr fun other _ => forall_lt_append_iff first.2 c other
  · -- The names differ before the first one ends, which settles the order of the keys.
    constructor
    · intro _ c rest hgo
      exact absurd ⟨c :: rest, hgo.symm⟩ hbegins
    · intro _
      rw [leafKeysAt_eq first.2, leafKeysAt_eq second.2]
      simp only [List.forall_mem_map, String.lt_iff, String.toList_append]
      intro key _ other _
      exact append_lt_append_of_not_prefix (String.lt_iff.1 h) hbegins _ _

mutual

/-- Siblings in all objects keep the order of keys. -/
def DotsFirst : Tree → Prop
  | object children => children.Pairwise DotFirst ∧ DotsFirstBelow children
  | array _ => True
  | scalar _ => True

/-- Siblings below these children keep the order of keys. -/
def DotsFirstBelow : List (String × Tree) → Prop
  | [] => True
  | (_, child) :: rest => child.DotsFirst ∧ DotsFirstBelow rest

end

theorem dotsFirst_object_iff {children : List (String × Tree)} :
    (object children).DotsFirst ↔ children.Pairwise DotFirst ∧ ∀ pair ∈ children, pair.2.DotsFirst := by
  have hbelow : DotsFirstBelow children ↔ ∀ pair ∈ children, pair.2.DotsFirst := by
    induction children with
    | nil => simp [DotsFirstBelow]
    | cons first rest ih => rw [DotsFirstBelow, ih, List.forall_mem_cons]
  rw [DotsFirst, hbelow]

/-- Names of letters, digits and underscores, all of which come after the dot, do no harm. -/
theorem dotsFirst_of_everyName {tree : Tree} (h : tree.EveryName fun name => ∀ c ∈ name.toList, '.' < c) :
    tree.DotsFirst := by
  induction tree with
  | scalar text => simp [DotsFirst]
  | array items ih => simp [DotsFirst]
  | object children ih =>
    have hnames := everyName_object_iff.1 h
    refine dotsFirst_object_iff.2 ⟨?_, fun pair hpair => ih pair hpair (hnames pair hpair).2⟩
    refine List.pairwise_of_forall_mem_list fun first _ second hsecond c rest hgo key _ other _ => .inl ?_
    exact (hnames second hsecond).1 c (by simp [hgo])

/-- The keys of the leaves ascend where siblings keep their order, and nowhere else. -/
theorem pairwise_leafKeys_iff {tree : Tree} (h : tree.Ordered) :
    tree.leafKeys.Pairwise (· < ·) ↔ tree.DotsFirst := by
  induction tree with
  | scalar text => simp [leafKeys, DotsFirst]
  | array items ih => simp [leafKeys, DotsFirst]
  | object children ih =>
    obtain ⟨hascending, hordered⟩ := ordered_object_iff.1 h
    rw [leafKeys_object, List.pairwise_flatMap, dotsFirst_object_iff, and_comm]
    refine and_congr ?_ (forall₂_congr fun pair hpair => ?_)
    · constructor
      · intro hkeys
        exact (hascending.and hkeys).imp fun hpair => (forall_lt_iff hpair.1).1 hpair.2
      · intro hdots
        exact (hascending.and hdots).imp fun hpair => (forall_lt_iff hpair.1).2 hpair.2
    · rw [pairwise_leafKeysAt_iff, ih pair hpair (hordered pair hpair)]

end Tree

end Phrasebook
