/-!
# Finding a text in another

`Text.splitAt?` cuts a text at the first occurrence of a marker.
-/

namespace Phrasebook.Text

/-- What stands before and after the first occurrence of a marker. -/
def splitAt? (marker : List Char) : List Char → Option (List Char × List Char)
  | [] => if marker = [] then some ([], []) else none
  | c :: rest =>
    if marker.isPrefixOf (c :: rest) then some ([], (c :: rest).drop marker.length)
    else (splitAt? marker rest).map fun (before, after) => (c :: before, after)

/-- Does a marker occur in a text? -/
def occurs (marker text : List Char) : Bool :=
  (splitAt? marker text).isSome

end Phrasebook.Text
