import Phrasebook.Command.Comparison
import Phrasebook.Command.Inspection
import Phrasebook.Command.Options
import Phrasebook.Locale

/-!
# Running commands

`Command.run` gives the report of a command line, for files that are given as a function.  A file that cannot be read
or is no tree ends `eval` and `coverage` with no output; `check` goes on with the next file.
-/

namespace Phrasebook.Command

/-- The report on the evaluation of a key. -/
def evalReport (key : String) (json : Bool) : Except EvalError String → Report
  | .ok result => {
      status := .ok
      output :=
        if json then prettyLine (.object [("key", .string key), ("result", .string result)]) else line result }
  | .error error => {
      status := .dataError
      errors :=
        if json then prettyLine (.object [("error", .string error.message), ("key", .string key)])
        else line ("Evaluation error: " ++ error.message) }

/-- Translates a key of a file. -/
def runEval (files : Files) (file key : String) (bindings : List (String × String)) (maxDepth : Nat) (json : Bool) :
    Report :=
  match LocaleFile.load files file with
  | .error error => error.report
  | .ok tree =>
    let locale : Locale := { maxDepth := maxDepth, store := ⟨some tree⟩ }
    let replacements := Replacements.ofList (bindings.map fun (name, text) => (name, Value.read text))
    let (result, after) := locale.evaluate key replacements
    { evalReport key json result with log := after.notices.reverse.filterMap Notice.message? }

/-- Inspects files. -/
def runCheck (files : Files) (colored : Bool) (paths : List String) (json : Bool) : Report :=
  let inspections := paths.map (Inspection.ofFile files)
  if json then Inspection.jsonReport inspections else Inspection.textReport colored inspections

/-- Compares languages with a source. -/
def runCoverage (files : Files) (source : String) (languages : List String) (directory : Option String)
    (strict json : Bool) : Report :=
  match Comparison.ofFiles files source languages directory with
  | .error error => error.report
  | .ok comparison => comparison.report strict json

/-- Is output coloured?  `terminal` says whether it goes to a terminal.  Variables of the environment that ask for
colours or forbid them, such as `NO_COLOR` and `FORCE_COLOR`, are not read. -/
def ColorChoice.isColored (terminal : Bool) : ColorChoice → Bool
  | auto => terminal
  | always => true
  | never => false

/-- Runs a command. -/
def Action.run (files : Files) (colored : Bool) : Action → Report
  | eval file key bindings maxDepth json => runEval files file key bindings maxDepth json
  | check paths json => runCheck files colored paths json
  | coverage source languages directory strict json => runCoverage files source languages directory strict json

/-- Runs a command with the options that every command takes.  `terminal` says whether the output goes to a terminal;
there is a log only if it is asked for. -/
def Invocation.run (files : Files) (terminal : Bool) (invocation : Invocation) : Report :=
  let report := invocation.action.run files (invocation.color.isColored terminal)
  if invocation.verbose then report else { report with log := [] }

/-- The files a command may read. -/
def Invocation.paths (invocation : Invocation) : List String :=
  match invocation.action with
  | .eval file _ _ _ _ => [file]
  | .check paths _ => paths
  | .coverage source languages directory _ _ => source :: languages.map (Comparison.languagePath source directory)

/-- Runs a command line. -/
def run (files : Files) (terminal : Bool) (arguments : List String) : Report :=
  match Invocation.parse arguments with
  | .error stop => .ofStop stop
  | .ok invocation => invocation.run files terminal

end Phrasebook.Command
