/-!
# Templates

A template is text with directives in it.  Scanning cuts it into `Segment`s; the text of all segments together is the
template again, which is why a directive keeps its own text.
-/

namespace Phrasebook

/-- Something to be replaced in a template. -/
inductive Directive where
  /-- A value in its natural text. -/
  | plain (name : String)
  /-- A value written as a format spec says. -/
  | format (name spec : String)
  /-- One of several forms, chosen by a count; the forms are still joined by commas. -/
  | plural (name forms : String)
  /-- Another message. -/
  | reference (key : String)
deriving DecidableEq, Repr

/-- A piece of a template. -/
inductive Segment where
  /-- Text that stands for itself. -/
  | literal (text : String)
  /-- A directive and the text it was written as. -/
  | directive (raw : String) (directive : Directive)
deriving DecidableEq, Repr

/-- The text of a segment in the template. -/
def Segment.source : Segment → String
  | literal text => text
  | directive raw _ => raw

end Phrasebook
