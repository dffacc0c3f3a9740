/-!
# Sets of characters

A `CharacterSet` holds ranges of code points.  The sets of this library that stand for a property of Unicode follow
its version 17, with the emoji, marks and ideographs known to be new in version 18.
-/

namespace Phrasebook.Text

/-- A set of characters: inclusive ranges of code points, in ascending order. -/
structure CharacterSet where
  ranges : List (Nat × Nat)

/-- Is the character in the set? -/
def CharacterSet.contains (set : CharacterSet) (c : Char) : Bool :=
  set.ranges.any fun range => range.1 ≤ c.toNat && c.toNat ≤ range.2

end Phrasebook.Text
