import Phrasebook.Command.Options
import Phrasebook.Json.Text

/-!
# Reports of commands

What a command leaves behind: text for the two outputs, a log and a status.
-/

namespace Phrasebook.Command

/-- How a command ended. -/
inductive Status where
  /-- All is well. -/
  | ok
  /-- The arguments are wrong. -/
  | usage
  /-- The data is wrong. -/
  | dataError
  /-- A file that is needed cannot be read. -/
  | software
deriving DecidableEq, Repr

/-- The exit code of a status. -/
def Status.code : Status → UInt8
  | ok => 0
  | usage => 2
  | dataError => 65
  | software => 70

/-- The outcome of a command. -/
structure Report where
  status : Status
  output : String := ""
  errors : String := ""
  /-- What there is to tell about the run, in order. -/
  log : List String := []
deriving DecidableEq, Repr

/-- A text as a line. -/
def line (text : String) : String :=
  text ++ "\n"

/-- The lines of several texts. -/
def lines (texts : List String) : String :=
  String.join (texts.map line)

/-- JSON on several lines. -/
def prettyLine (value : Json) : String :=
  line (String.ofList value.pretty)

namespace Report

/-- The version of the program. -/
def version : String := "dotloc 0.1.0"

/-- The report on a command line that gives no command to run. -/
def ofStop : Stop → Report
  | .help text => { status := .ok, output := lines text }
  | .version => { status := .ok, output := line version }
  | .misuse reason => { status := .usage, errors := lines ["error: " ++ reason, "", "For more information, try '--help'."] }

end Report

end Phrasebook.Command
