import Phrasebook.Command.Run
import Phrasebook.Proofs.Json.Pretty

/-!
# What a run prints

The options that every command takes change neither the status nor what is printed, but for colours.  Lines are cut
apart again where they were put together (`splitOn_lines`), and documents that are printed are read back
(`exists_parse_prettyLine`).
-/

namespace Phrasebook.Command

theorem Invocation.status_run (invocation : Invocation) (files : Files) (terminal : Bool) :
    (invocation.run files terminal).status =
      (invocation.action.run files (invocation.color.isColored terminal)).status := by
  unfold Invocation.run
  split <;> rfl

theorem Invocation.output_run (invocation : Invocation) (files : Files) (terminal : Bool) :
    (invocation.run files terminal).output =
      (invocation.action.run files (invocation.color.isColored terminal)).output := by
  unfold Invocation.run
  split <;> rfl

/-- Lines without a line feed of their own are cut apart again. -/
theorem splitOn_lines {texts : List String} (h : ∀ text ∈ texts, '\n' ∉ text.toList) :
    (lines texts).toList.splitOn '\n' = texts.map String.toList ++ [[]] := by
  induction texts with
  | nil => rfl
  | cons text texts ih =>
    obtain ⟨htext, htexts⟩ := List.forall_mem_cons.1 h
    have hlines : (lines (text :: texts)).toList = text.toList ++ '\n' :: (lines texts).toList := by
      simp [lines, line, String.toList_join]
    rw [hlines, List.splitOn_append_cons_self, List.splitOn_eq_singleton htext, ih htexts]
    rfl

private theorem parse_prettyLine {value : Json} (h : Json.IsDocument Json.depthLimit value) :
    Json.parse (prettyLine value) = .ok (value.fold Json.builder) := by
  have htext : prettyLine value = String.ofList (value.pretty ++ ['\n']) := by
    simp [prettyLine, line]
  rw [htext, h.parse_pretty]

/-- Documents that are printed as an array are read back, each in its place. -/
theorem exists_parse_prettyLine {α : Type} {R : α → Json → Prop} {items : List α} {write : α → Json}
    (hdocument : ∀ item ∈ items, Json.IsDocument (Json.depthLimit - 1) (write item))
    (hread : ∀ item ∈ items, R item ((write item).fold Json.builder)) :
    ∃ documents, Json.parse (prettyLine (.array (items.map write))) = .ok (.array documents) ∧
      List.Forall₂ R items documents := by
  have harray : Json.IsDocument (Json.depthLimit - 1 + 1) (.array (items.map write)) := by
    refine .array fun document hmem => ?_
    obtain ⟨item, hitem, rfl⟩ := List.mem_map.1 hmem
    exact hdocument item hitem
  refine ⟨items.map fun item => (write item).fold Json.builder, ?_, ?_⟩
  · rw [parse_prettyLine harray, Json.fold_array, List.map_map]
    rfl
  · rw [List.forall₂_map_right_iff, List.forall₂_same]
    exact hread

end Phrasebook.Command
