import Phrasebook.Binary64.Arithmetic
import Phrasebook.Text.Blank

/-!
# Plural forms

The form for a count is chosen by how many forms there are, not by language: two forms are one and other; three are
one, few and many, as in the Slavic languages; four are one, two, three to ten, and other.  Any other number of forms
has no rule.  A count is a double, and so are its last digits.
-/

namespace Phrasebook.Plural

/-- The forms of a directive, which commas separate; blanks around a form do not count, and `_` is the empty form. -/
def forms (text : String) : List String :=
  (text.toList.splitOn ',').map fun form =>
    let form := Text.trim form
    if form = ['_'] then "" else String.ofList form

/-- One or other. -/
def oneOther (count : Binary64) : Nat :=
  if count.isEqual 1 then 0 else 1

/-- One, few or many, by the last two digits.  A remainder has the sign of the count, so a negative count is many, as
are a fraction, an infinity and what is not a number. -/
def oneFewMany (count : Binary64) : Nat :=
  if ! count.isEqual count.truncate then 2
  else
    let lastDigit := count.remainder 10
    let lastTwoDigits := count.remainder 100
    if lastDigit.isEqual 1 && ! lastTwoDigits.isEqual 11 then 0
    else if lastDigit.isWithin 2 4 && ! lastTwoDigits.isWithin 12 14 then 1
    else 2

/-- One, two, more than two and at most ten, or other. -/
def oneTwoFewOther (count : Binary64) : Nat :=
  if count.isEqual 1 then 0
  else if count.isEqual 2 then 1
  else if Binary64.isLess 2 count && count.isAtMost 10 then 2
  else 3

/-- Does a rule exist for so many forms? -/
def isSupported (formCount : Nat) : Bool :=
  2 ≤ formCount && formCount ≤ 4

/-- The index of the form for a count among so many forms. -/
def index? (count : Binary64) (formCount : Nat) : Option Nat :=
  match formCount with
  | 2 => some (oneOther count)
  | 3 => some (oneFewMany count)
  | 4 => some (oneTwoFewOther count)
  | _ => none

/-- The form for a count. -/
def select? (count : Binary64) (forms : List String) : Option String :=
  (index? count forms.length).bind (forms[·]?)

end Phrasebook.Plural
