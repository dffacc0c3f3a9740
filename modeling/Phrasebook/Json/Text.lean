import Phrasebook.Json

/-!
# Writing JSON

`Json.compact` writes a value without spaces, `Json.pretty` on several lines, each level indented by two spaces.
Strings escape quotes, backslashes and control characters; everything else stands as it is.
-/

namespace Phrasebook.Json

/-- A character inside a quoted string. -/
def escaped (c : Char) : List Char :=
  if c = '"' then ['\\', '"']
  else if c = '\\' then ['\\', '\\']
  else if c = '\x08' then ['\\', 'b']
  else if c = '\x0c' then ['\\', 'f']
  else if c = '\n' then ['\\', 'n']
  else if c = '\r' then ['\\', 'r']
  else if c = '\t' then ['\\', 't']
  else if c.toNat < 0x20 then
    ['\\', 'u', '0', '0', Nat.digitChar (c.toNat / 16), Nat.digitChar (c.toNat % 16)]
  else [c]

/-- A string in quotes. -/
def quoted (text : List Char) : List Char :=
  '"' :: (text.flatMap escaped ++ ['"'])

/-- The word for a truth value. -/
def boolWord (value : Bool) : List Char :=
  if value then ['t', 'r', 'u', 'e'] else ['f', 'a', 'l', 's', 'e']

mutual

/-- The value without spaces. -/
def compact : Json → List Char
  | null => ['n', 'u', 'l', 'l']
  | bool value => boolWord value
  | number value => value.text
  | string value => quoted value.toList
  | array items => '[' :: (compactItems items ++ [']'])
  | object members => '{' :: (compactMembers members ++ ['}'])

/-- The items of an array, separated by commas. -/
def compactItems : List Json → List Char
  | [] => []
  | [item] => item.compact
  | item :: rest => item.compact ++ ',' :: compactItems rest

/-- The members of an object, separated by commas. -/
def compactMembers : List (String × Json) → List Char
  | [] => []
  | [(name, value)] => quoted name.toList ++ ':' :: value.compact
  | (name, value) :: rest => quoted name.toList ++ ':' :: (value.compact ++ ',' :: compactMembers rest)

end

/-- A line feed and the indentation of a level. -/
def newLine (level : Nat) : List Char :=
  '\n' :: List.replicate (2 * level) ' '

mutual

/-- The value on several lines, inside a line indented by `level` steps.  Empty arrays and objects take no lines. -/
def indented (level : Nat) : Json → List Char
  | null => ['n', 'u', 'l', 'l']
  | bool value => boolWord value
  | number value => value.text
  | string value => quoted value.toList
  | array [] => ['[', ']']
  | array items => '[' :: (indentedItems (level + 1) items ++ newLine level ++ [']'])
  | object [] => ['{', '}']
  | object members => '{' :: (indentedMembers (level + 1) members ++ newLine level ++ ['}'])

/-- The items of an array, each on a line of its own. -/
def indentedItems (level : Nat) : List Json → List Char
  | [] => []
  | [item] => newLine level ++ item.indented level
  | item :: rest => newLine level ++ item.indented level ++ ',' :: indentedItems level rest

/-- The members of an object, each on a line of its own. -/
def indentedMembers (level : Nat) : List (String × Json) → List Char
  | [] => []
  | [(name, value)] => newLine level ++ quoted name.toList ++ ':' :: ' ' :: value.indented level
  | (name, value) :: rest =>
    newLine level ++ quoted name.toList ++ ':' :: ' ' :: (value.indented level ++ ',' :: indentedMembers level rest)

end

/-- The value on several lines. -/
def pretty (value : Json) : List Char :=
  value.indented 0

end Phrasebook.Json
