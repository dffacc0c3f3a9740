import Phrasebook.Context
import Phrasebook.Format.Rendering
import Phrasebook.Plural
import Phrasebook.Template.Placeholder
import Phrasebook.Template.Reference
import Phrasebook.Tree

/-!
# Evaluation of messages

A message is evaluated in three passes, each on the text the one before it made: `interpolate` puts in values,
`pluralize` chooses plural forms, `expandReferences` puts in other messages, each evaluated in the same way.

Every evaluation returns the context along with its result, also when it fails, so that the keys it entered are left
again in all cases.  References may lead anywhere; the recursion is on the number of keys that may still be entered.
-/

namespace Phrasebook

/-- A mistake in a message, for the replacements given. -/
inductive EvalError where
  /-- A format spec that cannot be read, or does not suit its value. -/
  | format (name spec : String) (error : Format.Error)
  /-- A plural directive with a number of forms that has no rule. -/
  | unsupportedFormCount (name : String) (count : Nat)
  /-- A count that is no number, with its text. -/
  | nonNumericCount (name value : String)
deriving DecidableEq, Repr

/-- The wording of an evaluation error. -/
def EvalError.message : EvalError → String
  | format name spec error => "invalid format spec '" ++ spec ++ "' for '" ++ name ++ "': " ++ error.message
  | unsupportedFormCount name count =>
    "plural directive for '" ++ name ++ "' has " ++ count.repr ++ " forms, expected 2, 3 or 4"
  | nonNumericCount name value => "plural count '" ++ name ++ "' is not numeric: '" ++ value ++ "'"

namespace Evaluation

/-- The text of each segment, one after the other; the first error counts. -/
def substitute (replace : Directive → Except EvalError (Option String)) : List Segment → Except EvalError String
  | [] => .ok ""
  | .literal text :: rest => do
    let more ← substitute replace rest
    return text ++ more
  | .directive raw directive :: rest => do
    let replaced ← replace directive
    let more ← substitute replace rest
    return replaced.getD raw ++ more

/-! ### Values -/

/-- Does the template hold the start of a format directive of this name? -/
def hasFormatDirective (template name : String) : Bool :=
  Text.occurs ('{' :: '{' :: (name.toList ++ Template.formatMarker)) template.toList

/-- What a directive is replaced by in the first pass.  A plain directive is left alone in a template that holds the
start of a format directive of the same name; so is a name without a value. -/
def interpolation (replacements : Replacements) (template : String) :
    Directive → Except EvalError (Option String)
  | .format name spec =>
    match replacements.get? name with
    | none => .ok none
    | some value => ((Format.renderWith spec value).mapError (.format name spec)).map some
  | .plain name =>
    if hasFormatDirective template name then .ok none
    else .ok ((replacements.get? name).map Value.display)
  | .plural _ _ => .ok none
  | .reference _ => .ok none

/-- The first pass: puts in values. -/
def interpolate (replacements : Replacements) (template : String) : Except EvalError String :=
  substitute (interpolation replacements template) (Template.placeholders template)

/-! ### Plural forms -/

/-- The form for a count. -/
def selectForm (name : String) (count : Binary64) (forms : List String) : Except EvalError String :=
  match Plural.select? count forms with
  | some form => .ok form
  | none => .error (.unsupportedFormCount name forms.length)

/-- What a directive is replaced by in the second pass.  A name without a value is left alone. -/
def pluralization (replacements : Replacements) : Directive → Except EvalError (Option String)
  | .plural name forms =>
    match replacements.get? name with
    | none => .ok none
    | some value =>
      match value.toBinary64? with
      | none => .error (.nonNumericCount name value.display)
      | some count => (selectForm name count (Plural.forms forms)).map some
  | .plain _ => .ok none
  | .format _ _ => .ok none
  | .reference _ => .ok none

/-- The second pass: chooses plural forms. -/
def pluralize (replacements : Replacements) (text : String) : Except EvalError String :=
  substitute (pluralization replacements) (Template.placeholders text)

/-! ### References -/

/-- A result together with the context after it. -/
abbrev Outcome := Except EvalError String × Context

/-- The third pass over segments, for a given way to evaluate a key. -/
def expandSegments (evalKey : String → Context → Outcome) : List Segment → Context → Outcome
  | [], context => (.ok "", context)
  | .directive _ (.reference key) :: rest, context =>
    match evalKey key context with
    | (.error error, context) => (.error error, context)
    | (.ok expanded, context) =>
      let (more, context) := expandSegments evalKey rest context
      (more.map (expanded ++ ·), context)
  | segment :: rest, context =>
    let (more, context) := expandSegments evalKey rest context
    (more.map (segment.source ++ ·), context)

/-- All three passes, for a given way to evaluate a key. -/
def evalTemplateWith (evalKey : String → Context → Outcome) (template : String) (context : Context) : Outcome :=
  match (interpolate context.replacements template).bind (pluralize context.replacements) with
  | .error error => (.error error, context)
  | .ok text => expandSegments evalKey (Template.references text) context

/-- Evaluates the message of a key where `room` more keys may be entered.  A key that cannot be entered and a key
without a message are the empty text. -/
def evalKeyWithin (tree : Tree) : Nat → String → Context → Outcome
  | room, key, context =>
    match context.enter key with
    | .error reason => (.ok "", context.note (.refused key reason))
    | .ok entered =>
      match tree.raw? key, room with
      | some template, room + 1 =>
        let (result, after) := evalTemplateWith (evalKeyWithin tree room) template entered
        (result, after.leave)
      | _, _ => (.ok "", (entered.note (.missing key)).leave)

/-- Evaluates the message of a key. -/
def evalKey (tree : Tree) (key : String) (context : Context) : Outcome :=
  evalKeyWithin tree context.room key context

/-- The third pass: puts in other messages. -/
def expandReferences (tree : Tree) (text : String) (context : Context) : Outcome :=
  expandSegments (evalKey tree) (Template.references text) context

/-- Runs all three passes over a template. -/
def evalTemplate (tree : Tree) (template : String) (context : Context) : Outcome :=
  evalTemplateWith (evalKey tree) template context

end Evaluation

end Phrasebook
