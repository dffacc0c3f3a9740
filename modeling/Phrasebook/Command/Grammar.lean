/-!
# Grammars of command lines

A `Grammar` says what a command takes: its options and which operands.  It also holds what is told about them;
`Grammar.help` lays that out.
-/

namespace Phrasebook.Command

/-- An option a command knows. -/
structure Parameter where
  /-- Its long name. -/
  long : String
  /-- What it does. -/
  help : String
  /-- Its letter, if it has one. -/
  short : Option Char := none
  /-- What its value stands for, if it takes one. -/
  value : Option String := none
  /-- May it be given several times? -/
  repeatable : Bool := false
  /-- Which values it takes. -/
  accepts : String → Bool := fun _ => true

/-- Does the option take a value? -/
def Parameter.takesValue (parameter : Parameter) : Bool :=
  parameter.value.isSome

/-- What a command takes. -/
structure Grammar where
  /-- What the command does. -/
  about : String
  /-- How it is called. -/
  usage : String
  parameters : List Parameter
  /-- What its operands stand for, if it takes some, and what they are for. -/
  operands : Option (String × String) := none
  /-- Which operands it takes. -/
  acceptsOperand : String → Bool := fun _ => false
  /-- The commands that may follow, with what they do.  If there are some, the arguments end before the first operand,
  and the program tells its version. -/
  commands : List (String × String) := []

namespace Grammar

/-- Do the arguments end before the first operand, which names a command? -/
def hasCommands (grammar : Grammar) : Bool :=
  !grammar.commands.isEmpty

/-! ### Help -/

/-- An option as it is written: its letter or blanks in place of it, its long name, what its value stands for. -/
def written (parameter : Parameter) : String :=
  (match parameter.short with
    | some c => "-" ++ c.toString ++ ", "
    | none => "    ") ++
    "--" ++ parameter.long ++ ((parameter.value.map fun value => " <" ++ value ++ ">").getD "")

/-- The options that every command has besides its own. -/
def commonParameters (grammar : Grammar) : List Parameter :=
  { long := "help", short := some 'h', help := "Print help" } ::
    (if grammar.hasCommands then [{ long := "version", short := some 'V', help := "Print version" }] else [])

/-- How wide the help is laid out. -/
def helpWidth : Nat := 100

/-- A text with blanks after it up to a width. -/
def padded (width : Nat) (text : String) : String :=
  text ++ String.ofList (List.replicate (width - text.length) ' ')

/-- Entries with a text each: beside them in one column, or below them if the entries take more than two fifths of the
width and some text does not fit beside them. -/
def helpSection (title : String) (entries : List (String × String)) : List String :=
  if entries = [] then []
  else
    let longest := (entries.map fun (name, _) => name.length).foldl max 2
    let taken := longest + 12
    let below := 2 * helpWidth < 5 * taken && entries.any fun (_, text) => helpWidth < text.length + taken
    "" :: (title ++ ":") :: entries.flatMap fun (name, text) =>
      if below then ["  " ++ name, "          " ++ text] else ["  " ++ padded longest name ++ "  " ++ text]

/-- What is told about a command. -/
def help (grammar : Grammar) : List String :=
  [grammar.about, "", "Usage: " ++ grammar.usage] ++
    helpSection "Commands" grammar.commands ++
    helpSection "Arguments" grammar.operands.toList ++
    helpSection "Options" ((grammar.parameters ++ grammar.commonParameters).map fun parameter =>
      (written parameter, parameter.help))

end Grammar

end Phrasebook.Command
