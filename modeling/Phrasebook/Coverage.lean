import Phrasebook.Text.Columns
import Phrasebook.Tree

/-!
# Coverage of a language

`Coverage.compare` says which keys of a source a language has, which it misses and which it has in addition;
`Coverage.table` draws that for several languages.
-/

namespace Phrasebook

/-- How the keys of a language compare with those of a source. -/
structure Coverage where
  language : String
  /-- How many keys of the source the language has. -/
  translated : Nat
  /-- The keys of the source that the language does not have, in ascending order. -/
  missing : List String
  /-- The keys of the language that the source does not have, in ascending order. -/
  extra : List String
deriving DecidableEq, Repr

namespace Coverage

/-- The keys in ascending order, each once. -/
def keySet (keys : List String) : List String :=
  (Members.ofPairs (keys.map fun key => (key, ()))).map Prod.fst

/-- Compares a language with a source, both given by their key sets. -/
def compare (language : String) (source target : List String) : Coverage where
  language := language
  translated := (source.filter target.contains).length
  missing := source.filter (! target.contains ·)
  extra := target.filter (! source.contains ·)

/-! ### The table -/

/-- The cells of the first row. -/
def header : List String := ["Language", "Coverage", "Missing", "Extra"]

/-- The cells of a language, for a source with so many keys. -/
def cells (total : Nat) (coverage : Coverage) : List String :=
  [coverage.language, coverage.translated.repr ++ "/" ++ total.repr, coverage.missing.length.repr,
    coverage.extra.length.repr]

/-- The lines of a cell. -/
def cellLines (cell : String) : List (List Char) :=
  cell.toList.splitOn '\n'

/-- The columns a cell takes. -/
def cellWidth (cell : String) : Nat :=
  ((cellLines cell).map Text.columns).foldl max 0

/-- The widest cell of each column. -/
def widths (rows : List (List String)) : List Nat :=
  rows.foldl (fun widths row => List.zipWith max widths (row.map cellWidth)) (header.map fun _ => 0)

/-- A line of a cell with blanks after it up to the width, and one blank on each side. -/
def padCell (width : Nat) (line : List Char) : List Char :=
  ' ' :: (line ++ List.replicate (width - Text.columns line) ' ' ++ [' '])

/-- A row of the table, as many lines as its tallest cell has. -/
def tableRow (widths : List Nat) (row : List String) : List (List Char) :=
  let cells := row.map cellLines
  let height := (cells.map List.length).foldl max 0
  (List.range height).map fun i =>
    let padded := List.zipWith (fun width lines => padCell width (lines.getD i [])) widths cells
    '│' :: ([' '].intercalate padded ++ ['│'])

/-- A horizontal border with the given ends. -/
def border (widths : List Nat) (left line right : Char) : List Char :=
  let inner := widths.foldl (fun total width => total + width + 2) 0 + (widths.length - 1)
  left :: (List.replicate inner line ++ [right])

/-- The table of several languages, for a source with so many keys, as wide as its cells need: it is the one that is
drawn where the width of a terminal does not limit it. -/
def table (total : Nat) (rows : List Coverage) : List (List Char) :=
  let rows := rows.map (cells total)
  let widths := widths (header :: rows)
  [border widths '┌' '─' '┐'] ++ tableRow widths header ++ [border widths '╞' '═' '╡'] ++
    rows.flatMap (tableRow widths) ++ [border widths '└' '─' '┘']

end Coverage

end Phrasebook
