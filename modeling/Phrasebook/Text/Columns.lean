import Phrasebook.Text.CharacterWidth
import Phrasebook.Text.Emoji
import Phrasebook.Text.Ligature

/-!
# Terminal columns

How many columns a line takes on a terminal.  `Text.columns` goes through the line from right to left, as what a
character is joined to stands after it: a `Reading` says what the characters read so far begin with, and
`Reading.before` takes one more character and says how many columns it adds.
-/

namespace Phrasebook.Text

/-- A variation selector, which decides how the character before it is shown. -/
inductive Selector where
  /-- As text. -/
  | text
  /-- As a picture. -/
  | picture
  /-- In full width; for quotation marks. -/
  | fullWidth
deriving DecidableEq, Repr

/-- The selector that a character is. -/
def Selector.ofChar? (c : Char) : Option Selector :=
  if c = '\uFE0E' then some text
  else if c = '\uFE0F' then some picture
  else if c = '\uFE01' then some fullWidth
  else none

/-- What a text begins with, as far as a character before it may join it. -/
inductive Following where
  /-- Nothing that could be joined. -/
  | other
  /-- The end of an emoji. -/
  | emoji (follows : EmojiEnd)
  /-- The end of a ligature. -/
  | ligature (follows : LigatureEnd)
deriving DecidableEq, Repr

namespace Following

/-- What a character begins by itself. -/
def ofChar (c : Char) : Following :=
  match LigatureEnd.ofChar? c, EmojiEnd.ofChar? c with
  | some follows, _ => ligature follows
  | none, some follows => emoji follows
  | none, none => other

/-- Is this a joiner and an emoji, perhaps with a keycap mark before them? -/
def isJoined (following : Following) : Bool :=
  following == emoji .joined || following == emoji .joinedKeycap

/-- The columns that a character adds before this, and what the text begins with then. -/
def before (following : Following) (c : Char) : Int × Following :=
  let joined : Option (Int × Following) := match following with
    | other => none
    | emoji follows => (follows.extend? c).map fun (count, follows) => (count, emoji follows)
    | ligature follows =>
      (follows.extend? c).map fun (count, follows?) => (count, (follows?.map ligature).getD other)
  joined.getD (columnsOf c, ofChar c)

end Following

/-- The quotation marks that have a form in full width. -/
def quotationMarks : CharacterSet := ⟨[(0x2018, 0x2019), (0x201C, 0x201D)]⟩

/-- What the characters read so far begin with: perhaps a selector, and what follows it. -/
structure Reading where
  selector : Option Selector := none
  following : Following := .other
deriving DecidableEq, Repr

namespace Reading

/-- What the text begins with for a character that the selector has no effect on.  Only a ligature goes on over a
selector. -/
def unselected (reading : Reading) : Following :=
  match reading.selector, reading.following with
  | none, following => following
  | some _, .ligature follows => .ligature follows
  | some _, _ => .other

/-- Takes a selector, written as this character.  What follows is kept if a ligature goes on over it, or if a picture
before it would be joined to an emoji. -/
def select (reading : Reading) (selector : Selector) (c : Char) : Reading :=
  let following := match reading.unselected with
    | .ligature follows => if follows.skips c then .ligature follows else .other
    | following => if selector = .picture ∧ following.isJoined then following else .other
  ⟨some selector, following⟩

/-- The columns of a character that the selector has an effect on, and what the text begins with then.  A picture takes
two columns, or none if it is joined to the emoji after it; the pictures of ideographs are not shown as text. -/
def selected? (reading : Reading) (c : Char) : Option (Int × Following) :=
  match reading.selector with
  | some .picture =>
    if Emoji.choosable.contains c then some (if reading.following.isJoined then 0 else 2, .emoji .picture) else none
  | some .text =>
    if Emoji.choosable.contains c && Emoji.pictures.contains c && !Emoji.ideographs.contains c then some (1, .other)
    else none
  | some .fullWidth => if quotationMarks.contains c then some (2, .other) else none
  | none => none

/-- The columns that a character adds before what was read, and what there is to read on from. -/
def before (reading : Reading) (c : Char) : Int × Reading :=
  match reading.selected? c, Selector.ofChar? c with
  | some (count, following), _ => (count, { following := following })
  | none, some selector => (0, reading.select selector c)
  | none, none =>
    let (count, following) := reading.unselected.before c
    (count, { following := following })

end Reading

/-- The columns of a line. -/
def columns (line : List Char) : Nat :=
  let (total, _) := line.foldr (fun c (total, reading) =>
    let (count, reading) := Reading.before reading c
    (total + count, reading)) ((0 : Int), ({} : Reading))
  total.toNat

end Phrasebook.Text
