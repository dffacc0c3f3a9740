import Phrasebook.Command.Grammar

/-!
# Command line arguments

`Arguments.collect` reads arguments by a `Grammar`: long options `--name`, `--name value` and `--name=value`, clusters
of short options such as `-vp value` or `-pvalue`, and operands.  An argument that starts with a dash, unless it is the
dash alone, is never the separate value of an option; after `--` everything is an operand.  Arguments count from left
to right: the first that is wrong, or that asks for help or the version, ends the reading.
-/

namespace Phrasebook.Command

/-- Why the reading of arguments ended early. -/
inductive Stop where
  /-- The arguments are wrong. -/
  | misuse (reason : String)
  /-- Help was asked for; these are its lines. -/
  | help (text : List String)
  /-- The version was asked for. -/
  | version
deriving DecidableEq, Repr

/-- Something given on the command line. -/
inductive Argument where
  | flag (name : String)
  | value (name value : String)
  | operand (value : String)
deriving DecidableEq, Repr

namespace Argument

/-- The option an argument names. -/
def name? : Argument → Option String
  | flag name => some name
  | value name _ => some name
  | operand _ => none

end Argument

namespace Arguments

/-- Can this argument not be the separate value of an option? -/
def looksLikeOption (argument : String) : Bool :=
  argument.toList.head? == some '-' && argument != "-"

/-- Takes an option with its value, unless the value is refused. -/
def withValue (parameter : Parameter) (value : String) : Except Stop Argument :=
  if parameter.accepts value then .ok (.value parameter.long value)
  else .error (.misuse ("invalid value '" ++ value ++ "' for '--" ++ parameter.long ++ "'"))

/-- What one argument gives: options that are complete, and one that still needs its value. -/
abbrev Reading := List Argument × Option Parameter

/-- A long option, without its dashes. -/
def readLong (grammar : Grammar) (text : List Char) : Except Stop Reading :=
  let name := String.ofList (text.takeWhile (· != '='))
  match text.dropWhile (· != '='), grammar.parameters.find? (·.long = name) with
  | [], some parameter =>
    if parameter.takesValue then .ok ([], some parameter) else .ok ([.flag parameter.long], none)
  | _ :: value, some parameter =>
    if parameter.takesValue then (withValue parameter (String.ofList value)).map fun argument => ([argument], none)
    else .error (.misuse ("unexpected value for '--" ++ name ++ "'"))
  | rest, none =>
    if name = "help" ∧ rest = [] then .error (.help grammar.help)
    else if name = "version" ∧ rest = [] ∧ grammar.hasCommands then .error .version
    else .error (.misuse ("unexpected argument '--" ++ name ++ "'"))

/-- A cluster of short options, without its dash.  The first option that takes a value takes the rest of the cluster,
after an equals sign if there is one. -/
def readShort (grammar : Grammar) : List Char → Except Stop Reading
  | [] => .ok ([], none)
  | c :: rest =>
    match grammar.parameters.find? (·.short = some c) with
    | some parameter =>
      if parameter.takesValue then
        match rest with
        | [] => .ok ([], some parameter)
        | '=' :: value => (withValue parameter (String.ofList value)).map fun argument => ([argument], none)
        | value => (withValue parameter (String.ofList value)).map fun argument => ([argument], none)
      else
        (readShort grammar rest).map fun (arguments, open?) => (.flag parameter.long :: arguments, open?)
    | none =>
      if c = 'h' then .error (.help grammar.help)
      else if c = 'V' ∧ grammar.hasCommands then .error .version
      else .error (.misuse ("unexpected argument '-" ++ c.toString ++ "'"))

/-- An operand, unless it is refused. -/
def readOperand (grammar : Grammar) (text : String) : Except Stop Argument :=
  if grammar.acceptsOperand text then .ok (.operand text)
  else .error (.misuse ("unexpected argument '" ++ text ++ "'"))

/-- The operands after a double dash. -/
def readOperands (grammar : Grammar) : List String → Except Stop (List Argument)
  | [] => .ok []
  | text :: rest => do
    let argument ← readOperand grammar text
    let more ← readOperands grammar rest
    return argument :: more

/-- Checks that no option is given twice that may be given once only; `seen` are the names given so far. -/
def checkOnce (grammar : Grammar) (seen : List String) : List Argument → Except Stop (List String)
  | [] => .ok seen
  | argument :: rest =>
    match argument.name? with
    | none => checkOnce grammar seen rest
    | some name =>
      if seen.contains name && !grammar.parameters.any (fun p => p.long = name && p.repeatable) then
        .error (.misuse ("the argument '--" ++ name ++ "' cannot be used multiple times"))
      else checkOnce grammar (name :: seen) rest

/-- Is this argument `--`, which ends the options? -/
def isDoubleDash (argument : String) : Bool :=
  argument == "--"

/-- Reads the arguments from the left; with them come the arguments from the first operand on, if reading ends there.
`seen` are the options given so far. -/
def collect (grammar : Grammar) (seen : List String) : List String → Except Stop (List Argument × List String)
  | [] => .ok ([], [])
  | text :: rest =>
    if isDoubleDash text then
      (readOperands grammar rest).map fun arguments => (arguments, [])
    else if looksLikeOption text then
      let reading := match text.toList with
        | '-' :: '-' :: name => readLong grammar name
        | _ :: cluster => readShort grammar cluster
        | [] => .ok ([], none)
      match reading with
      | .error stop => .error stop
      | .ok (arguments, none) => do
        let seen ← checkOnce grammar seen arguments
        let (more, operands) ← collect grammar seen rest
        return (arguments ++ more, operands)
      | .ok (arguments, some parameter) =>
        match rest with
        | [] => .error (.misuse ("a value is required for '--" ++ parameter.long ++ "'"))
        | value :: rest =>
          if looksLikeOption value then
            .error (.misuse ("a value is required for '--" ++ parameter.long ++ "'"))
          else do
            let argument ← withValue parameter value
            let arguments := arguments ++ [argument]
            let seen ← checkOnce grammar seen arguments
            let (more, operands) ← collect grammar seen rest
            return (arguments ++ more, operands)
    else if grammar.hasCommands then
      .ok ([], text :: rest)
    else do
      let argument ← readOperand grammar text
      let (more, operands) ← collect grammar seen rest
      return (argument :: more, operands)

/-- The values of an option, in order. -/
def values (name : String) (arguments : List Argument) : List String :=
  arguments.filterMap fun
    | .value key value => if key = name then some value else none
    | _ => none

/-- The value of an option. -/
def value? (name : String) (arguments : List Argument) : Option String :=
  (values name arguments).getLast?

/-- Is an option given that takes no value? -/
def hasFlag (name : String) (arguments : List Argument) : Bool :=
  arguments.contains (.flag name)

/-- The operands, in order. -/
def operands (arguments : List Argument) : List String :=
  arguments.filterMap fun
    | .operand value => some value
    | _ => none

end Arguments

end Phrasebook.Command
