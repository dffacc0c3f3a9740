import Phrasebook.Command.Run

/-!
# The program

Reads the files that the command line names and prints the report on it.
-/

namespace Phrasebook

/-- What stands at a path on disk. -/
def fileState (path : String) : IO Command.FileState := do
  try
    return .file (← IO.FS.readFile path)
  catch
    | .noFileOrDirectory _ _ _ => return .absent
    | .inappropriateType _ 20 _ => return .belowFile
    | .inappropriateType _ _ _ => return .directory
    | error => return .unreadable error.toString

/-- The files at these paths; nothing stands at any other path. -/
def readFiles (paths : List String) : IO Command.Files := do
  let states ← paths.mapM fun path => return (path, ← fileState path)
  return fun path => (states.lookup path).getD .absent

end Phrasebook

open Phrasebook in
/-- Runs the program. -/
def main (arguments : List String) : IO UInt32 := do
  let files ← match Command.Invocation.parse arguments with
    | .ok invocation => readFiles invocation.paths
    | .error _ => readFiles []
  let output ← IO.getStdout
  let report := Command.run files (← output.isTty) arguments
  output.putStr report.output
  let errors ← IO.getStderr
  errors.putStr (Command.lines report.log)
  errors.putStr report.errors
  return report.status.code.toUInt32
