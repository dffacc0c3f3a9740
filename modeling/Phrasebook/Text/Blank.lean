/-!
# Blank characters

The characters with the Unicode property `White_Space`, and `Text.trim`, which removes them at both ends of a text.
-/

namespace Phrasebook.Text

/-- Has the character the property `White_Space`?  The zero-width space and the byte order mark do not. -/
def isBlank (c : Char) : Bool :=
  let n := c.toNat
  (9 ≤ n && n ≤ 13) || n == 0x20 || n == 0x85 || n == 0xA0 || n == 0x1680 || (0x2000 ≤ n && n ≤ 0x200A) ||
    n == 0x2028 || n == 0x2029 || n == 0x202F || n == 0x205F || n == 0x3000

/-- The text without the blanks at its ends. -/
def trim (text : List Char) : List Char :=
  ((text.dropWhile isBlank).reverse.dropWhile isBlank).reverse

end Phrasebook.Text
