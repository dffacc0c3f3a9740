import Phrasebook.Text.CharacterWidth

/-!
# Ligatures

Letters of some scripts join so that they take fewer columns than by themselves.  `LigatureEnd` says which ligature a
text may be the end of; `LigatureEnd.extend?` takes one more character, from right to left.
-/

namespace Phrasebook.Text

namespace Ligature

/-- The forms of the Arabic letter alef. -/
def alefs : CharacterSet := ⟨[
  (0x622, 0x623), (0x625, 0x625), (0x627, 0x627), (0x671, 0x673), (0x675, 0x675), (0x773, 0x774), (0x870, 0x882)]⟩

/-- The forms of the Arabic letter lam. -/
def lams : CharacterSet := ⟨[(0x644, 0x644), (0x6B5, 0x6B8), (0x76A, 0x76A), (0x8A6, 0x8A6), (0x8C7, 0x8C7)]⟩

/-- Khmer letters whose form below a consonant takes no column. -/
def khmerSubscripts : CharacterSet := ⟨[
  (0x1780, 0x1782), (0x1784, 0x1787), (0x1789, 0x178C), (0x178E, 0x1793), (0x1795, 0x1798), (0x179B, 0x179D),
  (0x17A0, 0x17A0), (0x17A2, 0x17A2), (0x17A7, 0x17A7), (0x17AB, 0x17AC), (0x17AF, 0x17AF)]⟩

/-- Tifinagh consonants that join. -/
def tifinaghConsonants : CharacterSet := ⟨[(0x2D31, 0x2D65), (0x2D6F, 0x2D6F)]⟩

/-- Lisu tone letters that may come first in a pair. -/
def lisuFirstTones : CharacterSet := ⟨[(0xA4F8, 0xA4FB)]⟩

/-- Lisu tone letters that may come second in a pair. -/
def lisuSecondTones : CharacterSet := ⟨[(0xA4FC, 0xA4FD)]⟩

/-- Default-ignorable combining marks, which may stand anywhere in a ligature. -/
def ignorableMarks : CharacterSet := ⟨[
  (0x34F, 0x34F), (0x17B4, 0x17B5), (0x180B, 0x180D), (0x180F, 0x180F), (0xFE00, 0xFE0F), (0xE0100, 0xE01EF)]⟩

/-- Invisible characters that keep the Arabic letters around them from joining: those whose `Joining_Type` is not
`Transparent`.  Ranges that agree on all invisible characters are put together. -/
def separators : CharacterSet := ⟨[
  (0x605, 0x605), (0x890, 0x891), (0x8E2, 0x8E2), (0x9BE, 0x9BE), (0x9D7, 0x9D7), (0xB3E, 0xB3E),
  (0xB57, 0xB57), (0xBBE, 0xBBE), (0xBD7, 0xBD7), (0xCC0, 0xCC2), (0xCC7, 0xCCB), (0xCD5, 0xCD6),
  (0xD3E, 0xD3E), (0xD57, 0xD57), (0xDCF, 0xDCF), (0xDDF, 0xDDF), (0x1160, 0x11FF), (0x1715, 0x1715),
  (0x1734, 0x1734), (0x180E, 0x180E), (0x1B35, 0x1B35), (0x1B3B, 0x1B3B), (0x1B3D, 0x1B3D), (0x1B43, 0x1B44),
  (0x1BAA, 0x1BAA), (0x1BF2, 0x1BF3), (0x200C, 0x200D), (0x2065, 0x2069), (0x302E, 0x302F), (0x3164, 0x3164),
  (0xA8FA, 0xA8FA), (0xA953, 0xA953), (0xA9C0, 0xA9C0), (0xD7B0, 0xD7FB), (0xFFA0, 0xFFF8), (0x111C0, 0x111C0),
  (0x11235, 0x11235), (0x1133E, 0x1133E), (0x1134D, 0x11357), (0x113B8, 0x113B8), (0x113C2, 0x113C9),
  (0x113CF, 0x113CF), (0x114B0, 0x114B0), (0x114BD, 0x114BD), (0x115AF, 0x115AF), (0x116B6, 0x116B6),
  (0x11930, 0x11930), (0x1193D, 0x1193D), (0x11F41, 0x11F41), (0x16FF0, 0x16FF1), (0x1D165, 0x1D166),
  (0x1D16D, 0x1D172), (0xE0000, 0xE0000), (0xE0002, 0xE001F), (0xE0080, 0xE00FF), (0xE01F0, 0xE0FFF)]⟩

/-- May this character stand between two Arabic letters that join? -/
def isTransparent (c : Char) : Bool :=
  columnsOf c = 0 && !separators.contains c

end Ligature

/-- Which ligature a text may be the end of; `joined` says that a joiner stands before it. -/
inductive LigatureEnd where
  /-- An Arabic alef, which a lam joins. -/
  | alef
  /-- A Hebrew lamed, which an alef joins through a joiner. -/
  | lamed (joined : Bool)
  /-- A Khmer letter that can stand below a consonant. -/
  | khmer
  /-- A Buginese ya, which a vowel sign i joins through a joiner. -/
  | ya (joined : Bool)
  /-- A Buginese vowel sign i joined to a ya, which the letter a joins. -/
  | vowelYa
  /-- A Tifinagh consonant, which another one joins through either joiner. -/
  | tifinagh (joined : Bool)
  /-- The Tifinagh joiner and a consonant. -/
  | tifinaghJoiner
  /-- A Lisu tone letter that may be second in a pair. -/
  | lisu
  /-- An Old Turkic i, which an ec joins through a joiner. -/
  | turkic (joined : Bool)
  /-- A Kirat Rai vowel sign e, which may be the second half of a vowel sign. -/
  | kiratRai
  /-- A Kirat Rai vowel sign ai, which may be the second half of the vowel sign au. -/
  | kiratRaiPair
deriving DecidableEq, Repr

namespace LigatureEnd

open Ligature

/-- The ligature that a character may be the end of. -/
def ofChar? (c : Char) : Option LigatureEnd :=
  if alefs.contains c then some alef
  else if c.toNat = 0x05DC then some (lamed false)
  else if khmerSubscripts.contains c then some khmer
  else if c.toNat = 0x1A10 then some (ya false)
  else if tifinaghConsonants.contains c then some (tifinagh false)
  else if lisuSecondTones.contains c then some lisu
  else if c.toNat = 0x10C03 then some (turkic false)
  else if c.toNat = 0x16D67 then some kiratRai
  else if c.toNat = 0x16D68 then some kiratRaiPair
  else none

/-- May this character stand before the end without parting it from what joins it? -/
def skips (follows : LigatureEnd) (c : Char) : Bool :=
  match follows with
  | alef => isTransparent c
  | kiratRai | kiratRaiPair => false
  | lamed _ | khmer | ya _ | vowelYa | tifinagh _ | tifinaghJoiner | lisu | turkic _ =>
    c == joiner || ignorableMarks.contains c

/-- What a joiner makes of the end of a ligature. -/
def join : LigatureEnd → LigatureEnd
  | lamed _ => lamed true
  | ya _ => ya true
  | tifinagh _ => tifinagh true
  | turkic _ => turkic true
  | follows => follows

/-- The columns that a character adds, and which ligature the text may be the end of then, if the character belongs to
the ligature.  A character that takes back columns of the ligature's end adds less than none. -/
def extend? (follows : LigatureEnd) (c : Char) : Option (Int × Option LigatureEnd) :=
  if follows.skips c then
    some (0, some (if c = joiner then follows.join else follows))
  else
    match follows with
    | alef => if lams.contains c then some (0, none) else none
    | lamed true => if c.toNat = 0x05D0 then some (0, none) else none
    | khmer => if c.toNat = 0x17D2 then some (-1, none) else none
    | ya true => if c.toNat = 0x1A17 then some (0, some vowelYa) else none
    | vowelYa => if c.toNat = 0x1A15 then some (0, none) else none
    | tifinagh joined =>
      if c.toNat = 0x2D7F then some (1, some tifinaghJoiner)
      else if joined && tifinaghConsonants.contains c then some (0, none)
      else none
    | tifinaghJoiner => if tifinaghConsonants.contains c then some (-1, none) else none
    | lisu => if lisuFirstTones.contains c then some (0, none) else none
    | turkic true => if c.toNat = 0x10C32 then some (0, none) else none
    | kiratRai =>
      if c.toNat = 0x16D67 then some (0, some kiratRaiPair)
      else if c.toNat = 0x16D63 ∨ c.toNat = 0x16D69 then some (0, none)
      else none
    | kiratRaiPair => if c.toNat = 0x16D63 then some (0, none) else none
    | lamed false | ya false | turkic false => none

end LigatureEnd

end Phrasebook.Text
