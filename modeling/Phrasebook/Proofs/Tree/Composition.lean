import Mathlib.Data.Set.Function
import Phrasebook.Proofs.KeyPath
import Phrasebook.Proofs.Tree.LeafKeys

/-!
# Keys that go on

Keys are lists of segments in another spelling, and reading a key undoes joining its segments (`bijOn_intercalate`,
`parse?_eq_some_iff`).  Two keys with a dot between them are the key of the segments of both (`parse?_append_dot`), and
looking it up is looking up the second key below the first (`keys_compose`).
-/

namespace Phrasebook

namespace KeyPath

variable {key : String} {path below : KeyPath}

theorem parse?_eq_some_iff : parse? key = some path ↔ path.text = key := by
  constructor
  · exact text_of_parse?
  · rintro rfl
    exact parse?_text path

/-- The lists of segments that keys have. -/
def lists : Set (List String) :=
  {names | names ≠ [] ∧ ∀ name ∈ names, IsSegment name}

theorem mem_lists_iff {names : List String} : names ∈ lists ↔ ∃ path : KeyPath, path.segments = names := by
  constructor
  · rintro ⟨hne, hsegments⟩
    exact exists_segments_eq hne hsegments
  · rintro ⟨path, rfl⟩
    exact ⟨path.segments_ne_nil, path.isSegment_of_mem⟩

/-- Joined by dots, the lists of segments are the keys that can be read, each of them once. -/
theorem bijOn_intercalate : Set.BijOn ".".intercalate lists {key | (parse? key).isSome} := by
  refine ⟨fun names hnames => ?_, fun names hnames others hothers hsame => ?_, fun key hkey => ?_⟩
  · obtain ⟨path, rfl⟩ := mem_lists_iff.1 hnames
    exact Option.isSome_iff_exists.2 ⟨path, parse?_text path⟩
  · obtain ⟨path, rfl⟩ := mem_lists_iff.1 hnames
    obtain ⟨other, rfl⟩ := mem_lists_iff.1 hothers
    exact congrArg segments (eq_of_text_eq hsame)
  · obtain ⟨path, hpath⟩ := Option.isSome_iff_exists.1 hkey
    exact ⟨path.segments, mem_lists_iff.2 ⟨path, rfl⟩, text_of_parse? hpath⟩

/-- The path that goes on along another one. -/
def append (path below : KeyPath) : KeyPath where
  segments := path.segments ++ below.segments
  segments_ne_nil := List.append_ne_nil_of_left_ne_nil path.segments_ne_nil _
  ne_empty_of_mem := List.forall_mem_append.2 ⟨path.ne_empty_of_mem, below.ne_empty_of_mem⟩
  dot_notMem_of_mem := List.forall_mem_append.2 ⟨path.dot_notMem_of_mem, below.dot_notMem_of_mem⟩

theorem text_append (path below : KeyPath) : (path.append below).text = path.text ++ "." ++ below.text :=
  String.intercalate_append_of_ne_nil path.segments_ne_nil below.segments_ne_nil

theorem parse?_append_dot {p q : String} (hp : parse? p = some path) (hq : parse? q = some below) :
    parse? (p ++ "." ++ q) = some (path.append below) := by
  rw [parse?_eq_some_iff, text_append, parse?_eq_some_iff.1 hp, parse?_eq_some_iff.1 hq]

end KeyPath

namespace Tree

variable {tree : Tree}

theorem descend?_append (tree : Tree) (names more : List String) :
    tree.descend? (names ++ more) = (tree.descend? names).bind (·.descend? more) := by
  induction names generalizing tree with
  | nil => rfl
  | cons name names ih =>
    rw [List.cons_append, descend?, descend?, Option.bind_assoc]
    exact congrArg _ (funext fun child => ih child)

theorem find?_append (tree : Tree) (path below : KeyPath) :
    tree.find? (path.append below) = (tree.find? path).bind (·.find? below) :=
  descend?_append tree path.segments below.segments

/-- Joining by dots is a bijection from the lists of segments, at least one, each of them not empty and without a dot,
to the keys that can be read, and reading a key is its inverse.  With a dot between them, two keys that can be read are
the key of the segments of both; the tree at it is the tree at the second key below the tree at the first, and so is
the message. -/
theorem keys_compose :
    Set.BijOn ".".intercalate {names | names ≠ [] ∧ ∀ name ∈ names, name ≠ "" ∧ '.' ∉ name.toList}
        {key | (KeyPath.parse? key).isSome} ∧
      (∀ key path, KeyPath.parse? key = some path ↔ path.text = key) ∧
      ∀ (tree : Tree) p q path below, KeyPath.parse? p = some path → KeyPath.parse? q = some below →
        ∃ whole, KeyPath.parse? (p ++ "." ++ q) = some whole ∧ whole.segments = path.segments ++ below.segments ∧
          tree.find? whole = (tree.find? path).bind (·.find? below) ∧
          tree.raw? (p ++ "." ++ q) = (tree.find? path).bind (·.raw? q) := by
  refine ⟨KeyPath.bijOn_intercalate, fun key path => KeyPath.parse?_eq_some_iff, fun tree p q path below hp hq => ?_⟩
  have hwhole := KeyPath.parse?_append_dot hp hq
  refine ⟨path.append below, hwhole, rfl, find?_append tree path below, ?_⟩
  calc tree.raw? (p ++ "." ++ q)
      = (tree.find? (path.append below)).bind leafText? := raw?_of_parse? tree hwhole
    _ = (tree.find? path).bind fun node => (node.find? below).bind leafText? := by
      rw [find?_append, Option.bind_assoc]
    _ = (tree.find? path).bind (·.raw? q) := congrArg _ (funext fun node => (raw?_of_parse? node hq).symm)

/-- A message in an object, and nothing in an array. -/
theorem keys_compose_below :
    let tree : Tree := object
      [("a", object [("b", object [("c", scalar "x")]), ("d", array [object [("c", scalar "y")]])])]
    KeyPath.parse? "a.b" = some ⟨["a", "b"], by decide, by decide, by decide⟩ ∧
      KeyPath.parse? "c" = some ⟨["c"], by decide, by decide, by decide⟩ ∧
      tree.raw? ("a.b" ++ "." ++ "c") = some "x" ∧ tree.raw? ("a.d" ++ "." ++ "c") = none := by
  intro tree
  have hab : KeyPath.parse? "a.b" = some ⟨["a", "b"], by decide, by decide, by decide⟩ := by decide +kernel
  have had : KeyPath.parse? "a.d" = some ⟨["a", "d"], by decide, by decide, by decide⟩ := by decide +kernel
  have hc : KeyPath.parse? "c" = some ⟨["c"], by decide, by decide, by decide⟩ := by decide +kernel
  obtain ⟨-, -, hcompose⟩ := keys_compose
  obtain ⟨-, -, -, -, hb⟩ := hcompose tree _ _ _ _ hab hc
  obtain ⟨-, -, -, -, hd⟩ := hcompose tree _ _ _ _ had hc
  refine ⟨hab, hc, ?_, ?_⟩
  · rw [hb]
    decide +kernel
  · rw [hd]
    decide +kernel

end Tree

end Phrasebook
