import Phrasebook.Binary64.Text
import Phrasebook.Members

/-!
# JSON values

A `Json` is a JSON value whose integers are exact.  `Json.fold` takes a value apart with a `Json.Builder`, which says
what is made of each kind of value; the reader drives the same builders, so that a value can be read straight into
another type.
-/

namespace Phrasebook

/-- A JSON number: an integer between `-2 ^ 63` and `2 ^ 64 - 1`, or a double. -/
inductive Json.Number where
  | integer (n : Int)
  | float (x : Binary64)
deriving DecidableEq, Repr

/-- The text of a number, without a point if it is whole. -/
def Json.Number.text : Json.Number → List Char
  | integer n => n.repr.toList
  | float x => x.text

/-- The number as a 64-bit integer with a sign, if it is one. -/
def Json.Number.signed? : Json.Number → Option Int
  | integer n => if -(1 <<< 63) ≤ n ∧ n < 1 <<< 63 then some n else none
  | float _ => none

/-- The number as a 64-bit integer without a sign, if it is one. -/
def Json.Number.unsigned? : Json.Number → Option Nat
  | integer n => if 0 ≤ n ∧ n < 1 <<< 64 then some n.toNat else none
  | float _ => none

/-- The number as a double; an integer is rounded. -/
def Json.Number.toBinary64 : Json.Number → Binary64
  | integer n => .ofInt n
  | float x => x

/-- A JSON value.  An object keeps its members in the order given. -/
inductive Json where
  | null
  | bool (value : Bool)
  | number (value : Json.Number)
  | string (value : String)
  | array (items : List Json)
  | object (members : List (String × Json))
deriving Repr

namespace Json

/-- What to make of each kind of JSON value. -/
structure Builder (α : Type) where
  null : α
  bool : Bool → α
  number : Number → α
  string : String → α
  array : List α → α
  object : List (String × α) → α

/-- Builds the value itself, with the members of an object in order of name and the last of each name. -/
def builder : Builder Json where
  null := null
  bool := bool
  number := number
  string := string
  array := array
  object members := object (Members.ofPairs members)

variable {α : Type}

mutual

/-- Takes a value apart. -/
def fold (b : Builder α) : Json → α
  | null => b.null
  | bool value => b.bool value
  | number value => b.number value
  | string value => b.string value
  | array items => b.array (foldItems b items)
  | object members => b.object (foldMembers b members)

/-- Takes each item apart. -/
def foldItems (b : Builder α) : List Json → List α
  | [] => []
  | item :: rest => item.fold b :: foldItems b rest

/-- Takes the value of each member apart. -/
def foldMembers (b : Builder α) : List (String × Json) → List (String × α)
  | [] => []
  | (name, value) :: rest => (name, value.fold b) :: foldMembers b rest

end

/-- The value of a member, if this is an object that has it. -/
def get? (value : Json) (name : String) : Option Json :=
  match value with
  | object members => members.lookup name
  | _ => none

end Json

end Phrasebook
