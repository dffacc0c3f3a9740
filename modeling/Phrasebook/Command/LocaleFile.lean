import Phrasebook.Command.Files
import Phrasebook.Command.Report
import Phrasebook.Tree

/-!
# Locale files

`LocaleFile.load` reads the tree that a file holds as JSON, or says why there is none.
-/

namespace Phrasebook.Command.LocaleFile

/-- Why a file gives no tree. -/
inductive Error where
  /-- It cannot be read. -/
  | unreadable (path reason : String)
  /-- It is no tree. -/
  | malformed (error : Tree.LoadError)
deriving DecidableEq, Repr

namespace Error

/-- The wording of an error. -/
def message : Error → String
  | unreadable path reason => "Failed to read locale file " ++ path ++ ": " ++ reason
  | malformed error => "invalid locale file: " ++ error.source.message

/-- The report of a command that cannot do without the file.  It tells the message of the error alone, with no code, no
hint and no excerpt of the file around it. -/
def report (error : Error) : Report where
  status := .software
  errors := line error.message

end Error

/-- Reads the tree in a file. -/
def load (files : Files) (path : String) : Except Error Tree := do
  let text ← ((files path).contents).mapError (.unreadable path)
  (Tree.load text).mapError .malformed

end Phrasebook.Command.LocaleFile
