/-!
# Files for commands

A command sees files through `Files`, which says what stands at a path.  A `Folder` is a set of files given by their
names and texts; `Folder.files` follows a path through it as a directory tree.
-/

namespace Phrasebook.Command

/-- What stands at a path. -/
inductive FileState where
  /-- Nothing. -/
  | absent
  /-- Nothing, as a file stands where the path needs a directory. -/
  | belowFile
  /-- A directory. -/
  | directory
  /-- A file that cannot be read, with the reason. -/
  | unreadable (reason : String)
  /-- A file with this text. -/
  | file (text : String)
deriving DecidableEq, Repr

namespace FileState

/-- Is there anything at the path? -/
def isPresent : FileState → Bool
  | absent | belowFile => false
  | directory | unreadable _ | file _ => true

/-- The text at the path, or why there is none. -/
def contents : FileState → Except String String
  | absent => .error "No such file or directory (os error 2)"
  | belowFile => .error "Not a directory (os error 20)"
  | directory => .error "Is a directory (os error 21)"
  | unreadable reason => .error reason
  | file text => .ok text

end FileState

/-- What stands at each path. -/
abbrev Files := String → FileState

/-- The path of a file in a directory.  A file name that starts at the root stands for itself. -/
def joinPath (directory name : String) : String :=
  if directory = "" ∨ name.toList.head? = some '/' then name
  else if directory.toList.getLast? = some '/' then directory ++ name
  else directory ++ "/" ++ name

/-- The directory of a file: its path up to the last slash, or the empty path if there is none. -/
def parentPath (path : String) : String :=
  let upToSlash := path.toList.reverse.dropWhile (· != '/')
  let directory := (upToSlash.dropWhile (· == '/')).reverse
  if upToSlash ≠ [] ∧ directory = [] then "/" else String.ofList directory

/-- Files by name; the parts of a name before a slash are directories. -/
structure Folder where
  entries : List (String × String)

namespace Folder

/-- The names along the path of each file, with its text. -/
def paths (folder : Folder) : List (List String × String) :=
  folder.entries.map fun (name, text) => ((name.toList.splitOn '/').map String.ofList, text)

/-- What stands at a list of names from the top. -/
def entry (folder : Folder) (names : List String) : FileState :=
  match folder.paths.lookup names with
  | some text => .file text
  | none =>
    if names = [] ∨ folder.paths.any (fun (path, _) => names.isPrefixOf path) then .directory else .absent

/-- Follows the parts of a path from a directory. -/
def follow (folder : Folder) (here : List String) : List String → FileState
  | [] => .directory
  | part :: rest =>
    if part = "" ∨ part = "." then folder.follow here rest
    else if part = ".." then
      if here = [] then .absent else folder.follow here.dropLast rest
    else
      match folder.entry (here ++ [part]) with
      | .directory => folder.follow (here ++ [part]) rest
      | .file text => if rest = [] then .file text else .belowFile
      | state => state

/-- What stands at each path that starts in the folder.  Nothing stands at the empty path and outside the folder. -/
def files (folder : Folder) : Files := fun path =>
  if path = "" ∨ path.toList.head? = some '/' then .absent
  else folder.follow [] ((path.toList.splitOn '/').map String.ofList)

end Folder

end Phrasebook.Command
