import Phrasebook.Binary64.Reading
import Phrasebook.Command.Arguments
import Phrasebook.Context

/-!
# Commands and their options

`Invocation.parse` reads a command line: `eval` translates one key, `check` inspects files, `coverage` compares
languages with a source.
-/

namespace Phrasebook.Command

/-- When output is coloured. -/
inductive ColorChoice where
  | auto
  | always
  | never
deriving DecidableEq, Repr

/-- The choice a word stands for. -/
def ColorChoice.ofText? (word : String) : Option ColorChoice :=
  match word with
  | "auto" => some auto
  | "always" => some always
  | "never" => some never
  | _ => none

/-- A command with its options. -/
inductive Action where
  /-- Translate a key. -/
  | eval (file key : String) (replacements : List (String × String)) (maxDepth : Nat) (json : Bool)
  /-- Inspect files. -/
  | check (files : List String) (json : Bool)
  /-- Compare languages with a source. -/
  | coverage (source : String) (languages : List String) (directory : Option String) (strict json : Bool)
deriving DecidableEq, Repr

/-- A command line. -/
structure Invocation where
  color : ColorChoice
  verbose : Bool
  action : Action
deriving DecidableEq, Repr

namespace Invocation

/-- A replacement on the command line: a name, an equals sign, the text of a value. -/
def binding? (text : String) : Option (String × String) :=
  match text.toList.dropWhile (· != '=') with
  | [] => none
  | _ :: value => some (String.ofList (text.toList.takeWhile (· != '=')), String.ofList value)

/-- A number of at most 64 bits, with an optional plus sign. -/
def depth? (text : String) : Option Nat :=
  if text.toList.head? = some '-' then none
  else
    match Decimal.readInt? text.toList with
    | some n => if n.toNat < 1 <<< 64 then some n.toNat else none
    | none => none

/-- The option that sets the colour choice. -/
def colorParameter : Parameter where
  long := "color"
  value := "COLOR"
  help := "Color output control [default: auto] [possible values: auto, always, never]"
  accepts word := (ColorChoice.ofText? word).isSome

/-- The option that asks for a log. -/
def verboseParameter : Parameter where
  long := "verbose"
  short := some 'v'
  help := "Log lookup misses and expansion cuts to stderr"

/-- What `check` takes. -/
def checkGrammar : Grammar where
  about := "Lint locale files for dangling or cyclic `$t(...)` references, plural directives without 2, 3 or 4 " ++
    "forms, and unusable format specs. Exits with DATAERR when any file has warnings"
  usage := "dotloc check [OPTIONS] <FILES>..."
  operands := some ("<FILES>...", "Files to check (.json)")
  acceptsOperand := (· != "")
  parameters := [
    colorParameter,
    { long := "json", help := "Output as JSON" },
    verboseParameter]

/-- What `coverage` takes. -/
def coverageGrammar : Grammar where
  about := "Compare the dotted leaf keys of `<lang>.json` files against a source file and report covered, missing " ++
    "and extra keys per language"
  usage := "dotloc coverage [OPTIONS] --source <SOURCE>"
  parameters := [
    colorParameter,
    { long := "source", value := "SOURCE", help := "Source language file (e.g., en.json)", accepts := (· != "") },
    { long := "lang", value := "LANG", help := "Languages to check coverage for (comma-separated)",
      repeatable := true },
    verboseParameter,
    { long := "translations", value := "TRANSLATIONS", accepts := (· != ""),
      help := "Directory containing translation files. Defaults to source file directory" },
    { long := "strict", help := "Exit with non-zero code if any translation is incomplete" },
    { long := "json", help := "Output results as JSON" }]

/-- What `eval` takes. -/
def evalGrammar : Grammar where
  about := "Translate one dotted key from a locale file. Missing keys print an empty line; format and plural errors " ++
    "exit with DATAERR"
  usage := "dotloc eval [OPTIONS] --file <FILE> --key <KEY>"
  parameters := [
    colorParameter,
    { long := "file", value := "FILE", help := "Locale file (.json)", accepts := (· != "") },
    { long := "key", value := "KEY", help := "Dotted key to translate" },
    verboseParameter,
    { long := "param", short := some 'p', value := "PARAMS", repeatable := true,
      accepts := fun text => (binding? text).isSome,
      help := "Replacements in name=value format (repeatable). Values are read as an integer, then a float, and " ++
        "otherwise kept as text" },
    { long := "max-depth", value := "MAX_DEPTH", accepts := fun text => (depth? text).isSome,
      help := "Maximum number of keys on one `$t(...)` chain, counting `--key` itself. References nested deeper, and " ++
        "cyclic references, expand to an empty string [default: " ++ Context.defaultMaxDepth.repr ++ "]" },
    { long := "json", help := "Output as JSON" }]

/-- What may stand before the command. -/
def topGrammar : Grammar where
  about := "dotloc locale file tools"
  usage := "dotloc [OPTIONS] <COMMAND>"
  parameters := [colorParameter, verboseParameter]
  commands := [
    ("check", checkGrammar.about),
    ("coverage", coverageGrammar.about),
    ("eval", evalGrammar.about),
    ("help", "Print this message or the help of the given subcommand(s)")]

/-- The value of an option that must be given. -/
def required (name : String) (arguments : List Argument) : Except Stop String :=
  match Arguments.value? name arguments with
  | some value => .ok value
  | none => .error (.misuse ("the argument '--" ++ name ++ "' is required"))

/-- The grammar of a command, and what its arguments mean. -/
def command? (name : String) : Option (Grammar × (List Argument → Except Stop Action)) :=
  match name with
  | "eval" => some (evalGrammar, fun arguments => do
      let file ← required "file" arguments
      let key ← required "key" arguments
      let replacements := (Arguments.values "param" arguments).filterMap binding?
      let maxDepth := ((Arguments.value? "max-depth" arguments).bind depth?).getD Context.defaultMaxDepth
      return .eval file key replacements maxDepth (Arguments.hasFlag "json" arguments))
  | "check" => some (checkGrammar, fun arguments =>
      match Arguments.operands arguments with
      | [] => .error (.misuse "a file is required")
      | files => .ok (.check files (Arguments.hasFlag "json" arguments)))
  | "coverage" => some (coverageGrammar, fun arguments => do
      let source ← required "source" arguments
      let languages := (Arguments.values "lang" arguments).flatMap fun value =>
        (value.toList.splitOn ',').map String.ofList
      return .coverage source languages (Arguments.value? "translations" arguments)
        (Arguments.hasFlag "strict" arguments) (Arguments.hasFlag "json" arguments))
  | _ => none

/-- The colour choice among options, if it is there. -/
def color? (arguments : List Argument) : Option ColorChoice :=
  (Arguments.value? "color" arguments).bind ColorChoice.ofText?

/-- Reads a command line.  An option of every command counts where it is given last, before or after the command. -/
def parse (arguments : List String) : Except Stop Invocation := do
  let (outer, rest) ← Arguments.collect topGrammar [] arguments
  match rest with
  | [] => throw (.misuse "a command is required")
  | name :: rest =>
    match command? name with
    | none => throw (if name = "help" then helpFor rest else .misuse ("unrecognized command '" ++ name ++ "'"))
    | some (grammar, action) =>
      let (inner, _) ← Arguments.collect grammar [] rest
      let action ← action inner
      return {
        color := ((color? inner).orElse fun _ => color? outer).getD .auto
        verbose := Arguments.hasFlag "verbose" outer || Arguments.hasFlag "verbose" inner
        action := action }
where
  /-- The command `help`, followed by the name of a command or by nothing. -/
  helpFor : List String → Stop
    | [] => .help topGrammar.help
    | [name] =>
      match command? name with
      | some (grammar, _) => .help grammar.help
      | none =>
        if name = "help" then .help topGrammar.help else .misuse ("unrecognized command '" ++ name ++ "'")
    | _ => .misuse "too many commands"

end Invocation

end Phrasebook.Command
