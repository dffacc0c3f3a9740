import Phrasebook.Json.Reader
import Phrasebook.Json.Text
import Phrasebook.KeyPath
import Phrasebook.Text.Blank

/-!
# Trees of messages

The messages of one language form a `Tree`: named children, ordered items, and texts at the leaves.  Trees are made
from JSON text (`Tree.load`) and JSON values (`Tree.ofJson`, `Tree.convert`) and looked into by name (`Tree.find?`);
`Tree.leafKeys` lists the keys of all leaves and `Tree.raw?` is the text of a leaf as it stands in the tree.

Every tree made from JSON has its children in order of name, which is what `Tree.Ordered` says.
-/

namespace Phrasebook

/-- The messages of one language. -/
inductive Tree where
  /-- Named children. -/
  | object (children : List (String × Tree))
  /-- Ordered items. -/
  | array (items : List Tree)
  /-- The text of a message. -/
  | scalar (text : String)
deriving Repr

namespace Tree

mutual

/-- The children of every object ascend by name. -/
def Ordered : Tree → Prop
  | object children => Members.Ascending children ∧ OrderedChildren children
  | array items => OrderedItems items
  | scalar _ => True

/-- Each of these trees is ordered. -/
def OrderedItems : List Tree → Prop
  | [] => True
  | item :: rest => item.Ordered ∧ OrderedItems rest

/-- Each of these children is ordered. -/
def OrderedChildren : List (String × Tree) → Prop
  | [] => True
  | (_, child) :: rest => child.Ordered ∧ OrderedChildren rest

end

/-! ### From and to JSON -/

/-- Makes a tree of JSON: a null is the empty text, truth values and numbers are their texts. -/
def builder : Json.Builder Tree where
  null := scalar ""
  bool value := scalar (String.ofList (Json.boolWord value))
  number value := scalar (String.ofList value.text)
  string := scalar
  array := array
  object children := object (Members.ofPairs children)

/-- The tree of a JSON value. -/
def ofJson (value : Json) : Tree :=
  value.fold builder

theorem orderedChildren_iff {children : List (String × Tree)} :
    OrderedChildren children ↔ ∀ pair ∈ children, pair.2.Ordered := by
  induction children with
  | nil => simp [OrderedChildren]
  | cons first rest ih => simp [OrderedChildren, ih]

mutual

/-- The tree of a JSON value is ordered. -/
theorem ordered_ofJson : ∀ value : Json, (ofJson value).Ordered
  | .null | .bool _ | .number _ | .string _ => by simp [ofJson, Json.fold, builder, Ordered]
  | .array items => by
    simpa [ofJson, Json.fold, builder, Ordered] using orderedItems_fold items
  | .object members => by
    have h := orderedChildren_iff.1 (orderedChildren_fold members)
    simp only [ofJson, Json.fold, builder, Ordered]
    exact ⟨Members.ascending_ofPairs _,
      orderedChildren_iff.2 fun pair hpair => h pair (Members.mem_of_mem_ofPairs hpair)⟩

private theorem orderedItems_fold : ∀ items : List Json, OrderedItems (Json.foldItems builder items)
  | [] => by simp [Json.foldItems, OrderedItems]
  | item :: rest => by
    simp only [Json.foldItems, OrderedItems]
    exact ⟨ordered_ofJson item, orderedItems_fold rest⟩

private theorem orderedChildren_fold :
    ∀ members : List (String × Json), OrderedChildren (Json.foldMembers builder members)
  | [] => by simp [Json.foldMembers, OrderedChildren]
  | (_, value) :: rest => by
    simp only [Json.foldMembers, OrderedChildren]
    exact ⟨ordered_ofJson value, orderedChildren_fold rest⟩

end

/-- The text of a number: a 64-bit integer with a sign, else one without, else the double. -/
def numberText (value : Json.Number) : String :=
  match value.signed? with
  | some n => n.repr
  | none =>
    match value.unsigned? with
    | some n => n.repr
    | none => String.ofList value.toBinary64.text

mutual

/-- Converts a JSON value that is at hand, without a builder. -/
def convert : Json → Tree
  | .null => scalar ""
  | .bool value => scalar (String.ofList (Json.boolWord value))
  | .number value => scalar (numberText value)
  | .string text => scalar text
  | .array items => array (convertItems items)
  | .object members => object (Members.ofPairs (convertMembers members))

/-- Converts each item. -/
def convertItems : List Json → List Tree
  | [] => []
  | item :: rest => convert item :: convertItems rest

/-- Converts the value of each member. -/
def convertMembers : List (String × Json) → List (String × Tree)
  | [] => []
  | (name, value) :: rest => (name, convert value) :: convertMembers rest

end

/-- Why a text is no tree. -/
structure LoadError where
  source : Json.Error
deriving DecidableEq, Repr

/-- The wording of a load error. -/
def LoadError.message (error : LoadError) : String :=
  "invalid locale JSON: " ++ error.source.message

/-- Reads a tree from JSON text, without a JSON value in between. -/
def load (text : String) : Except LoadError Tree :=
  (Json.read builder Json.depthLimit text).mapError .mk

mutual

/-- The tree as JSON, with a string for every text. -/
def toJson : Tree → Json
  | object children => .object (childrenToJson children)
  | array items => .array (itemsToJson items)
  | scalar text => .string text

/-- Items as JSON. -/
def itemsToJson : List Tree → List Json
  | [] => []
  | item :: rest => item.toJson :: itemsToJson rest

/-- Children as JSON. -/
def childrenToJson : List (String × Tree) → List (String × Json)
  | [] => []
  | (name, child) :: rest => (name, child.toJson) :: childrenToJson rest

end

/-- The tree as JSON text without spaces. -/
def compact (tree : Tree) : String :=
  String.ofList tree.toJson.compact

/-! ### Looking up -/

/-- The child of a name.  Arrays and texts have no named children. -/
def child? (tree : Tree) (name : String) : Option Tree :=
  match tree with
  | object children => Members.get? children name
  | array _ => none
  | scalar _ => none

/-- Walks down by names. -/
def descend? (tree : Tree) : List String → Option Tree
  | [] => some tree
  | name :: rest => (tree.child? name).bind (·.descend? rest)

/-- The tree at a key path. -/
def find? (tree : Tree) (path : KeyPath) : Option Tree :=
  tree.descend? path.segments

/-- The text of a tree as an item of an array: a text stands as it is, anything else as JSON. -/
def elementText : Tree → String
  | scalar text => text
  | tree => tree.compact

/-- What stands between the items of an array that is read as one text. -/
def arraySeparator : String := ", "

/-- The text of a leaf: a text as it stands, the items of an array joined and the result trimmed.  An object is no
leaf. -/
def leafText? : Tree → Option String
  | scalar text => some text
  | array items =>
    some (String.ofList (Text.trim (arraySeparator.intercalate (items.map elementText)).toList))
  | object _ => none

/-- The text of the leaf at a dotted key, with nothing replaced in it. -/
def raw? (tree : Tree) (key : String) : Option String := do
  let path ← KeyPath.parse? key
  let node ← tree.find? path
  node.leafText?

/-! ### Keys -/

mutual

/-- The dotted keys of the leaves at and below a tree that stands at `key`. -/
def leafKeysAt (key : String) : Tree → List String
  | object children => leafKeysBelow key children
  | array _ => [key]
  | scalar _ => [key]

/-- The dotted keys of the leaves below the children of an object that stands at `key`. -/
def leafKeysBelow (key : String) : List (String × Tree) → List String
  | [] => []
  | (name, child) :: rest => child.leafKeysAt (key ++ "." ++ name) ++ leafKeysBelow key rest

end

/-- The dotted keys of all leaves, in the order of the tree.  A root that is itself a leaf has no key. -/
def leafKeys : Tree → List String
  | object children => children.flatMap fun (name, child) => child.leafKeysAt name
  | array _ => []
  | scalar _ => []

end Tree

end Phrasebook
