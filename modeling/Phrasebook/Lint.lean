import Phrasebook.Format.Spec
import Phrasebook.Plural
import Phrasebook.Suggestion
import Phrasebook.Template.Placeholder
import Phrasebook.Template.Reference
import Phrasebook.Tree

/-!
# Inspection of trees

`Lint.warnings` finds what is wrong with the messages of a tree whatever values they are given: references to keys that
have no message, directives that always fail, and references that lead back to where they came from.
-/

namespace Phrasebook

/-- Something wrong with the messages of a tree. -/
inductive Warning where
  /-- A reference to a key without a message, and keys that may have been meant. -/
  | danglingReference (key target : String) (suggestions : List String)
  /-- References that lead from the first key back to it. -/
  | cyclicReference (chain : List String)
  /-- A plural directive with a number of forms that has no rule. -/
  | unsupportedPluralForms (key name : String) (count : Nat)
  /-- A format spec that no value can be rendered with. -/
  | invalidFormatSpec (key name spec : String) (error : Format.Error)
deriving DecidableEq, Repr

namespace Warning

/-- The key of the message that is at fault; of a cycle, the first one. -/
def key : Warning → String
  | danglingReference key _ _ => key
  | cyclicReference chain => chain.headD ""
  | unsupportedPluralForms key _ _ => key
  | invalidFormatSpec key _ _ _ => key

/-- The wording of a warning. -/
def message : Warning → String
  | danglingReference key target suggestions =>
    key ++ ": reference $t(" ++ target ++ ") does not resolve" ++
      (if suggestions = [] then "" else "; did you mean: " ++ ", ".intercalate suggestions ++ "?")
  | cyclicReference chain => "cyclic reference: " ++ " -> ".intercalate chain
  | unsupportedPluralForms key name count =>
    key ++ ": plural directive for '" ++ name ++ "' has " ++ count.repr ++ " forms, expected 2, 3 or 4"
  | invalidFormatSpec key name spec error =>
    key ++ ": format spec '" ++ spec ++ "' for '" ++ name ++ "': " ++ error.message

end Warning

namespace Lint

/-- What is wrong with a directive by itself. -/
def placeholderWarning? (key : String) : Segment → Option Warning
  | .directive _ (.plural name forms) =>
    let count := (Plural.forms forms).length
    if Plural.isSupported count then none else some (.unsupportedPluralForms key name count)
  | .directive _ (.format name spec) =>
    match Format.validate spec with
    | .ok _ => none
    | .error error => some (.invalidFormatSpec key name spec error)
  | _ => none

/-- The key a segment refers to. -/
def target? : Segment → Option String
  | .directive _ (.reference key) => some key
  | _ => none

/-- The keys that a message refers to, in order. -/
def targets (text : String) : List String :=
  (Template.references text).filterMap target?

/-- What is wrong with a reference: its target has no message. -/
def referenceWarning? (tree : Tree) (key target : String) : Option Warning :=
  if (tree.raw? target).isSome then none
  else some (.danglingReference key target (Suggestion.suggest target tree.leafKeys))

/-- What is wrong with a message by itself: first its placeholders, then its references. -/
def messageWarnings (tree : Tree) (key text : String) : List Warning :=
  (Template.placeholders text).filterMap (placeholderWarning? key) ++
    (targets text).filterMap (referenceWarning? tree key)

/-- What is wrong with the message of a key by itself; nothing if the key has none. -/
def keyWarnings (tree : Tree) (key : String) : List Warning :=
  match tree.raw? key with
  | some text => messageWarnings tree key text
  | none => []

/-! ### Cycles -/

/-- The keys with a message in ascending order, each with the keys it refers to that have a message. -/
abbrev Graph := List (String × List String)

/-- The graph of the references of a tree. -/
def graph (tree : Tree) : Graph :=
  Members.ofPairs <| tree.leafKeys.filterMap fun key =>
    (tree.raw? key).map fun text => (key, (targets text).filter fun target => (tree.raw? target).isSome)

/-- What a search for cycles has seen and found so far. -/
structure Search where
  /-- The keys that a path was continued through. -/
  visited : List String := []
  /-- The cycles, the latest first. -/
  found : List (List String) := []

/-- Follows the targets of the last key on a path, of which `start` is the first, given a way to follow a longer path.
A target that is `start` closes a cycle; a greater one that was not visited continues the path. -/
def followTargets (follow : List String → Search → Search) (start : String) (path : List String) :
    List String → Search → Search
  | [], search => search
  | target :: rest, search =>
    let search :=
      if target = start then { search with found := (path ++ [start]) :: search.found }
      else if start < target ∧ ¬ search.visited.contains target then
        follow (path ++ [target]) { search with visited := target :: search.visited }
      else search
    followTargets follow start path rest search

/-- Searches for paths that lead back to `start` through greater keys only, so that each cycle is found from its
smallest key.  `room` bounds the length of the paths. -/
def searchFrom (graph : Graph) (start : String) : Nat → List String → Search → Search
  | 0, _, search => search
  | room + 1, path, search =>
    match (path.getLast?).bind (Members.get? graph) with
    | none => search
    | some targets => followTargets (searchFrom graph start room) start path targets search

/-- The cycles found from a key.  A path holds keys of the graph only, each once, so their number bounds its length. -/
def cyclesFrom (graph : Graph) (start : String) : List (List String) :=
  (searchFrom graph start (graph.length + 1) [start] {}).found

/-- Puts a chain in its place in an ascending list, unless it is there already. -/
def insertChain (chain : List String) : List (List String) → List (List String)
  | [] => [chain]
  | first :: rest =>
    if chain < first then chain :: first :: rest
    else if chain = first then first :: rest
    else first :: insertChain chain rest

/-- All cycles found, in ascending order. -/
def cycles (graph : Graph) : List (List String) :=
  (graph.flatMap fun (key, _) => cyclesFrom graph key).foldr insertChain []

/-- Everything wrong with the messages of a tree, key by key, with the cycles last. -/
def warnings (tree : Tree) : List Warning :=
  tree.leafKeys.flatMap (keyWarnings tree) ++ (cycles (graph tree)).map .cyclicReference

end Lint

end Phrasebook
