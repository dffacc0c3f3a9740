import Phrasebook.Template.Frame

/-!
# References

A reference to another message is written `$t(key)`.  `Template.references` finds them.
-/

namespace Phrasebook.Template

/-- A dollar sign, `t(`, a key without parentheses that is not empty, `)`. -/
def reference : Frame where
  mark := '$'
  opening := ['t', '(']
  inBody c := c != '(' && c != ')'
  closing := [')']
  classify? body := if body = [] then none else some (.reference (String.ofList body))

/-- The references of a text and the text around them. -/
def references (text : String) : List Segment :=
  reference.scan text.toList

end Phrasebook.Template
