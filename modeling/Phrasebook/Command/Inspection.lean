import Phrasebook.Command.LocaleFile
import Phrasebook.Lint

/-!
# Inspection of files

The command `check` inspects files one by one.  A file that gives no tree is a failure like a file with warnings, and
does not keep the others from being inspected.
-/

namespace Phrasebook.Command

/-- What the inspection of a file found: why it gives no tree, or the warnings about its tree. -/
structure Inspection where
  file : String
  outcome : Except LocaleFile.Error (List Warning)

namespace Inspection

/-- Inspects a file. -/
def ofFile (files : Files) (path : String) : Inspection where
  file := path
  outcome := (LocaleFile.load files path).map Lint.warnings

/-- Why the file gives no tree, if so. -/
def error? (inspection : Inspection) : Option LocaleFile.Error :=
  match inspection.outcome with
  | .error error => some error
  | .ok _ => none

/-- The warnings; none if the file gives no tree. -/
def warnings (inspection : Inspection) : List Warning :=
  match inspection.outcome with
  | .error _ => []
  | .ok warnings => warnings

/-- Is anything wrong with the file? -/
def isFailed (inspection : Inspection) : Bool :=
  inspection.error?.isSome || !inspection.warnings.isEmpty

/-! ### JSON -/

/-- The word for the kind of a warning. -/
def kindWord : Warning → String
  | .danglingReference _ _ _ => "dangling-reference"
  | .cyclicReference _ => "cyclic-reference"
  | .unsupportedPluralForms _ _ _ => "unsupported-plural-forms"
  | .invalidFormatSpec _ _ _ _ => "invalid-format-spec"

/-- A warning as JSON. -/
def warningJson (warning : Warning) : Json :=
  .object [("key", .string warning.key), ("kind", .string (kindWord warning)), ("message", .string warning.message)]

/-- An inspection as JSON; an error stands there only if there is one. -/
def toJson (inspection : Inspection) : Json :=
  .object (("file", .string inspection.file) ::
    ((inspection.error?.map fun error => ("error", Json.string error.message)).toList ++
      [("warnings", .array (inspection.warnings.map warningJson))]))

/-! ### Text -/

/-- A text in a terminal colour or style, if colours are on. -/
def styled (colored : Bool) (start finish text : String) : String :=
  if colored then "\x1b[" ++ start ++ "m" ++ text ++ "\x1b[" ++ finish ++ "m" else text

/-- A line for each warning. -/
def toLines (colored : Bool) (inspection : Inspection) : List String :=
  inspection.warnings.map fun warning =>
    styled colored "1" "0" inspection.file ++ ": " ++ styled colored "33" "39" "warning:" ++ " " ++ warning.message

/-- The line that ends the text on several files. -/
def summary (inspections : List Inspection) : String :=
  inspections.length.repr ++ " file(s) checked, " ++
    (inspections.flatMap warnings).length.repr ++ " warning(s)"

/-! ### Reports -/

/-- The status after inspecting several files. -/
def status (inspections : List Inspection) : Status :=
  if inspections.any isFailed then .dataError else .ok

/-- The report on several files as JSON, which holds their errors too. -/
def jsonReport (inspections : List Inspection) : Report where
  status := status inspections
  output := prettyLine (.array (inspections.map toJson))

/-- The report on several files as text.  The summary is red after a failure and else green.  Of the errors it tells the
messages alone, as `LocaleFile.Error.report` does. -/
def textReport (colored : Bool) (inspections : List Inspection) : Report where
  status := status inspections
  output :=
    let color := if inspections.any isFailed then "31" else "32"
    lines (inspections.flatMap (toLines colored) ++ [styled colored color "39" (summary inspections)])
  errors := lines (inspections.filterMap fun inspection => inspection.error?.map LocaleFile.Error.message)

end Inspection

end Phrasebook.Command
