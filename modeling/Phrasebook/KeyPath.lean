/-!
# Key paths

A key such as `menu.file.open` names a place in a tree by its segments, root first.  Segments are not empty and hold
no dot; there is no escaping.  `KeyPath.parse?` accepts exactly the texts that are such keys.
-/

namespace Phrasebook

/-- A dotted key, split into segments. -/
structure KeyPath where
  segments : List String
  segments_ne_nil : segments ≠ []
  ne_empty_of_mem : ∀ segment ∈ segments, segment ≠ ""
  dot_notMem_of_mem : ∀ segment ∈ segments, '.' ∉ segment.toList
deriving DecidableEq

namespace KeyPath

/-- No piece of a list split at an element holds that element. -/
private theorem notMem_of_mem_splitOn {c : Char} {cs piece : List Char} (h : piece ∈ cs.splitOn c) : c ∉ piece := by
  induction cs generalizing piece with
  | nil => simp_all
  | cons x xs ih =>
    rw [List.splitOn_cons_eq_if_modifyHead] at h
    split at h
    · rcases List.mem_cons.1 h with rfl | h
      · simp
      · exact ih h
    · next hx =>
      obtain ⟨first, rest, hsplit⟩ := List.exists_cons_of_ne_nil (List.splitOn_ne_nil c xs)
      rw [hsplit, List.modifyHead_cons] at h
      rcases List.mem_cons.1 h with rfl | h
      · have hfirst : c ∉ first := ih (by simp [hsplit])
        rintro (_ | ⟨_, hmem⟩)
        · exact hx BEq.rfl
        · exact hfirst hmem
      · exact ih (by simp [hsplit, h])

/-- The pieces of a key between its dots. -/
def pieces (key : String) : List String :=
  (key.toList.splitOn '.').map String.ofList

private theorem pieces_ne_nil (key : String) : pieces key ≠ [] := by
  simp [pieces, List.splitOn_ne_nil]

private theorem dot_notMem_of_mem_pieces {key piece : String} (h : piece ∈ pieces key) : '.' ∉ piece.toList := by
  obtain ⟨cs, hcs, rfl⟩ := List.mem_map.1 h
  simpa using notMem_of_mem_splitOn hcs

/-- Reads a dotted key; there is none if a piece between the dots is empty. -/
def parse? (key : String) : Option KeyPath :=
  if h : ∀ piece ∈ pieces key, piece ≠ "" then
    some ⟨pieces key, pieces_ne_nil key, h, fun _ => dot_notMem_of_mem_pieces⟩
  else
    none

/-- The dotted text of a key. -/
def text (path : KeyPath) : String :=
  ".".intercalate path.segments

end KeyPath

end Phrasebook
