import Phrasebook.Binary64.Reading
import Phrasebook.Binary64.Text
import Phrasebook.Text.Blank

/-!
# Replacement values

A `Value` takes the place of a name in a template.  `Value.text` is its natural text, `Value.toBinary64?` the number
that a plural directive counts with; `Value.read` gives a text the narrowest type it denotes.  `Replacements` binds
names to values.
-/

namespace Phrasebook

/-- A value to be put into a template. -/
inductive Value where
  /-- A 32-bit integer. -/
  | int (n : Int32)
  /-- A 64-bit integer. -/
  | long (n : Int64)
  /-- A double. -/
  | float (x : Binary64)
  /-- A text. -/
  | text (s : String)
deriving DecidableEq, Repr

namespace Value

/-- The natural text of a value. -/
def display : Value → String
  | int n => n.toInt.repr
  | long n => n.toInt.repr
  | float x => String.ofList x.text
  | text s => s

/-- The integer a value is; doubles and texts are none. -/
def toInt? : Value → Option Int
  | int n => some n.toInt
  | long n => some n.toInt
  | float _ => none
  | text _ => none

/-- The text a value is, if it is one. -/
def toText? : Value → Option String
  | text s => some s
  | _ => none

/-- The value as a double: an integer is rounded to the nearest one, a text is read after trimming. -/
def toBinary64? : Value → Option Binary64
  | int n => some (.ofInt n.toInt)
  | long n => some (.ofInt n.toInt)
  | float x => some x
  | text s => Binary64.read? (Text.trim s.toList)

/-- An integer that is at least `-2 ^ 63` as a value: a 64-bit integer, and beyond `2 ^ 63 - 1` the nearest double. -/
def ofInt (n : Int) : Value :=
  if n ≤ Int64.maxValue.toInt then long (Int64.ofInt n) else float (.ofInt n)

/-- The narrowest value a text denotes: a 32-bit integer, a 64-bit integer, a double, or else the text itself. -/
def read (s : String) : Value :=
  match Decimal.readInt? s.toList with
  | some n =>
    if Int32.minValue.toInt ≤ n ∧ n ≤ Int32.maxValue.toInt then int (Int32.ofInt n)
    else if Int64.minValue.toInt ≤ n ∧ n ≤ Int64.maxValue.toInt then long (Int64.ofInt n)
    else readDouble s
  | none => readDouble s
where
  /-- A double, or else the text itself. -/
  readDouble (s : String) : Value :=
    match Binary64.read? s.toList with
    | some x => float x
    | none => text s

end Value

/-- Names bound to values, the latest binding of a name first. -/
structure Replacements where
  bindings : List (String × Value) := []

namespace Replacements

/-- No bindings. -/
def empty : Replacements := {}

/-- Binds a name, hiding an older binding of it. -/
def bind (replacements : Replacements) (name : String) (value : Value) : Replacements :=
  ⟨(name, value) :: replacements.bindings⟩

/-- Binds the pairs in order, so that the last one of a name counts. -/
def ofList (pairs : List (String × Value)) : Replacements :=
  pairs.foldl (fun replacements pair => replacements.bind pair.1 pair.2) empty

/-- The value bound to a name. -/
def get? (replacements : Replacements) (name : String) : Option Value :=
  replacements.bindings.lookup name

end Replacements

end Phrasebook
