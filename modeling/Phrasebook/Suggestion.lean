/-!
# Suggestions for mistyped names

`Suggestion.distance` is the edit distance of two texts: the least number of insertions, deletions and replacements of
characters that turns one into the other.  `Suggestion.suggest` picks the nearest of the available names.
-/

namespace Phrasebook.Suggestion

/-- The next row of the distance table, after its first entry `left`, for one more character `a` of the first text.
The row before it starts with `diagonal`. -/
def nextEntries (a : Char) (left diagonal : Nat) : List Char → List Nat → List Nat
  | b :: bs, above :: row =>
    let entry := min (min (above + 1) (left + 1)) (if a = b then diagonal else diagonal + 1)
    entry :: nextEntries a entry above bs row
  | _, _ => []

/-- The next row of the distance table: the distances from one more character of the first text to the beginnings of
the second text, by length. -/
def nextRow (a : Char) (bs : List Char) (row : List Nat) : List Nat :=
  match row with
  | [] => []
  | diagonal :: row => (diagonal + 1) :: nextEntries a (diagonal + 1) diagonal bs row

/-- The edit distance of two texts. -/
def distance (as bs : List Char) : Nat :=
  (as.foldl (fun row a => nextRow a bs row) (List.range (bs.length + 1))).getLastD 0

/-- The largest distance at which a name is suggested: one for a name of at most three bytes, else two. -/
def limit (name : String) : Nat :=
  if name.utf8ByteSize ≤ 3 then 1 else 2

/-- How many names are suggested at most. -/
def maxCount : Nat := 3

/-- The nearest of the available names within the limit, other than the name itself; equally near ones keep their
order. -/
def suggest (name : String) (available : List String) : List String :=
  let near := available.filterMap fun candidate =>
    let d := distance name.toList candidate.toList
    if 0 < d ∧ d ≤ limit name then some (d, candidate) else none
  ((near.mergeSort fun a b => a.1 ≤ b.1).take maxCount).map Prod.snd

end Phrasebook.Suggestion
