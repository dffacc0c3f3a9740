import Phrasebook.Template.Frame
import Phrasebook.Text.Search

/-!
# Placeholders

A placeholder is written between double braces: `{{name}}`, `{{name.format(spec)}}` or `{{name.plural(forms)}}`.
`Template.placeholders` finds them.
-/

namespace Phrasebook.Template

/-- What comes between the name and the spec of a format directive. -/
def formatMarker : List Char := ".format(".toList

/-- What comes between the name and the forms of a plural directive. -/
def pluralMarker : List Char := ".plural(".toList

/-- The argument of a call, up to the first closing parenthesis, which has to be the end. -/
def argument? (text : List Char) : Option (List Char) :=
  match text.dropWhile (· != ')') with
  | [')'] => some (text.takeWhile (· != ')'))
  | _ => none

/-- A call with a name before its marker and an argument after it. -/
def call? (name argument : List Char) (directive : String → String → Directive) : Option Directive :=
  if name = [] then none
  else (argument? argument).map fun argument => directive (String.ofList name) (String.ofList argument)

/-- The directive with this body.  A format marker anywhere makes it a format directive, else a plural marker a plural
directive; if the call is malformed, it is no directive at all. -/
def classifyPlaceholder? (body : List Char) : Option Directive :=
  if body = [] then none
  else
    match Text.splitAt? formatMarker body with
    | some (name, argument) => call? name argument .format
    | none =>
      match Text.splitAt? pluralMarker body with
      | some (name, argument) => call? name argument .plural
      | none => some (.plain (String.ofList body))

/-- Two braces, a body without braces, two braces. -/
def placeholder : Frame where
  mark := '{'
  opening := ['{']
  inBody c := c != '{' && c != '}'
  closing := ['}', '}']
  classify? := classifyPlaceholder?

/-- The placeholders of a text and the text around them. -/
def placeholders (text : String) : List Segment :=
  placeholder.scan text.toList

end Phrasebook.Template
