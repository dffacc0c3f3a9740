import Phrasebook.KeyPath

/-!
# Key paths and their texts

A key that is read has that key as its text (`text_of_parse?`), and the text of a key path is read as that path
(`parse?_text`).
-/

namespace Phrasebook.KeyPath

/-- The name can be a segment of a key. -/
def IsSegment (name : String) : Prop :=
  name ≠ "" ∧ '.' ∉ name.toList

instance (name : String) : Decidable (IsSegment name) :=
  inferInstanceAs (Decidable (_ ∧ _))

theorem isSegment_of_mem (path : KeyPath) : ∀ name ∈ path.segments, IsSegment name :=
  fun name hname => ⟨path.ne_empty_of_mem name hname, path.dot_notMem_of_mem name hname⟩

theorem exists_segments_eq {names : List String} (hne : names ≠ []) (h : ∀ name ∈ names, IsSegment name) :
    ∃ path : KeyPath, path.segments = names :=
  ⟨⟨names, hne, fun name hname => (h name hname).1, fun name hname => (h name hname).2⟩, rfl⟩

/-- The segments of a key, joined by dots, are the key. -/
theorem text_of_parse? {key : String} {path : KeyPath} (h : parse? key = some path) : path.text = key := by
  unfold parse? at h
  split at h
  · obtain rfl := Option.some.inj h
    show ".".intercalate (pieces key) = key
    apply String.toList_inj.1
    have hmap : (pieces key).map String.toList = key.toList.splitOn '.' := by
      simp [pieces, Function.comp_def]
    rw [String.toList_intercalate, hmap]
    exact List.intercalate_splitOn '.'
  · cases h

/-- Names without dots are cut apart again where they were joined. -/
theorem pieces_intercalate {names : List String} (hne : names ≠ []) (hdots : ∀ name ∈ names, '.' ∉ name.toList) :
    pieces (".".intercalate names) = names := by
  have hdots' : ∀ piece ∈ names.map String.toList, '.' ∉ piece := by simpa using hdots
  have hsplit : (".".intercalate names).toList.splitOn '.' = names.map String.toList := by
    rw [String.toList_intercalate]
    exact List.splitOn_intercalate '.' hdots' (by simpa using hne)
  unfold pieces
  rw [hsplit]
  simp [Function.comp_def]

theorem segments_of_parse? {key : String} {path : KeyPath} (h : parse? key = some path) :
    path.segments = pieces key := by
  unfold parse? at h
  split at h
  · obtain rfl := Option.some.inj h
    rfl
  · cases h

/-- A key path is read from its text. -/
theorem parse?_text (path : KeyPath) : parse? path.text = some path := by
  obtain ⟨segments, hne, hempty, hdots⟩ := path
  have hpieces : pieces (text ⟨segments, hne, hempty, hdots⟩) = segments := pieces_intercalate hne hdots
  unfold parse?
  simp only [hpieces]
  exact dif_pos hempty

/-- Different paths have different texts. -/
theorem eq_of_text_eq {path other : KeyPath} (h : path.text = other.text) : path = other :=
  Option.some.inj ((parse?_text path).symm.trans ((congrArg parse? h).trans (parse?_text other)))

end Phrasebook.KeyPath
