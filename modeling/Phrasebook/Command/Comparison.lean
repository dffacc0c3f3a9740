import Phrasebook.Command.LocaleFile
import Phrasebook.Coverage

/-!
# Comparison of languages with a source

The command `coverage` compares the files of several languages with a source file.  A language without a file has no
keys; a file that gives no tree ends the comparison.
-/

namespace Phrasebook.Command

/-- How several languages compare with a source. -/
structure Comparison where
  /-- How many keys the source has. -/
  total : Nat
  /-- The languages, in the order they were asked for. -/
  rows : List Coverage
deriving DecidableEq, Repr

namespace Comparison

/-- The keys of the leaves in a file, each once. -/
def fileKeys (files : Files) (path : String) : Except LocaleFile.Error (List String) :=
  (LocaleFile.load files path).map fun tree => Coverage.keySet tree.leafKeys

/-- The path of the file of a language: in the directory, if one is given, else beside the source. -/
def languagePath (source : String) (directory : Option String) (language : String) : String :=
  joinPath (directory.getD (parentPath source)) (language ++ ".json")

/-- The keys in the file of a language; none if there is no file. -/
def languageKeys (files : Files) (path : String) : Except LocaleFile.Error (List String) :=
  if (files path).isPresent then fileKeys files path else .ok []

/-- Compares several languages with a source. -/
def ofFiles (files : Files) (source : String) (languages : List String) (directory : Option String) :
    Except LocaleFile.Error Comparison := do
  let sourceKeys ← fileKeys files source
  let rows ← languages.mapM fun language => do
    let keys ← languageKeys files (languagePath source directory language)
    return Coverage.compare language sourceKeys keys
  return ⟨sourceKeys.length, rows⟩

/-- Has every language all keys of the source? -/
def isComplete (comparison : Comparison) : Bool :=
  comparison.rows.all fun row => row.missing.isEmpty

/-- A row as JSON, for a source with so many keys. -/
def rowJson (total : Nat) (row : Coverage) : Json :=
  .object [("language", .string row.language), ("translated", .number (.integer row.translated)),
    ("total", .number (.integer total)), ("missing", .array (row.missing.map .string)),
    ("extra", .array (row.extra.map .string))]

/-- A comparison as JSON. -/
def toJson (comparison : Comparison) : Json :=
  .array (comparison.rows.map (rowJson comparison.total))

/-- The lines that list what a language misses; none if it misses nothing. -/
def missingLines (row : Coverage) : List String :=
  if row.missing = [] then []
  else "" :: ("Missing in " ++ row.language ++ ":") :: row.missing.map ("  - " ++ ·)

/-- A comparison as text: the table, and what each language misses. -/
def toLines (comparison : Comparison) : List String :=
  (Coverage.table comparison.total comparison.rows).map String.ofList ++ comparison.rows.flatMap missingLines

/-- The report on a comparison.  Only a strict one minds languages that miss something. -/
def report (strict json : Bool) (comparison : Comparison) : Report where
  status := if strict && !comparison.isComplete then .dataError else .ok
  output := if json then prettyLine comparison.toJson else lines comparison.toLines

end Comparison

end Phrasebook.Command
