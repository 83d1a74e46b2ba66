import Textmate.Dict
import Textmate.Files.Path

/-!
# File trees

A file tree is a dictionary from *locations*, the lists of names from the root, to directories and
texts, together with a working directory from which relative paths start. Finding a path goes
through its pieces from the left; each piece has to stand in a directory.
-/

namespace Textmate

/-- The names from the root to a place in a file tree. -/
abbrev Location := List String

/-- What stands at a location. -/
inductive Entry where
  | directory
  | file (text : String)
  deriving Repr, DecidableEq

/-- Why a file cannot be used. -/
inductive FileProblem where
  | notFound
  /-- A file stands where a directory is needed. -/
  | notDirectory
  /-- A directory stands where a file is needed. -/
  | isDirectory
  deriving Repr, DecidableEq

/-- The wording of the problem. -/
def FileProblem.message : FileProblem → String
  | .notFound => "No such file or directory (os error 2)"
  | .notDirectory => "Not a directory (os error 20)"
  | .isDirectory => "Is a directory (os error 21)"

/-- A file tree. -/
structure Files where
  /-- Where relative paths start. -/
  workingDirectory : Location
  /-- What the tree holds below the root. -/
  entries : List (Location × Entry)

namespace Files

/-- What stands at a location. The root is always a directory. -/
def at? (files : Files) (location : Location) : Option Entry :=
  if location = [] then some .directory else Dict.find? location files.entries

/-- Takes one step along a path. -/
def step (files : Files) (location : Location) (piece : String) : Except FileProblem Location :=
  match files.at? location with
  | none => .error .notFound
  | some (.file _) => .error .notDirectory
  | some .directory =>
    -- Above the root there is the root.
    .ok <| if Path.isIdle piece then location
      else if piece = ".." then location.dropLast
      else location ++ [piece]

/-- The location of a path, at which nothing needs to stand. -/
def locate (files : Files) (path : String) : Except FileProblem Location :=
  if path = "" then .error .notFound
  else
    (Path.pieces path).foldlM files.step
      (if Path.isAbsolute path then [] else files.workingDirectory)

/-- What stands at a path. -/
def entry (files : Files) (path : String) : Except FileProblem Entry := do
  match files.at? (← files.locate path) with
  | none => .error .notFound
  | some entry => .ok entry

def holds (files : Files) (path : String) : Bool :=
  (files.entry path).toOption.isSome

def isDirectory (files : Files) (path : String) : Bool :=
  (files.entry path).toOption == some .directory

/-- The text of the file at a path. -/
def read (files : Files) (path : String) : Except FileProblem String := do
  match ← files.entry path with
  | .directory => .error .isDirectory
  | .file text => .ok text

/-- The tree with a text written at a path. -/
def write (files : Files) (path text : String) : Except FileProblem Files := do
  let location ← files.locate path
  -- A file needs a directory to stand in.
  match files.at? location, files.at? location.dropLast with
  | some .directory, _ => .error .isDirectory
  | _, some .directory =>
    .ok { files with entries := Dict.insert location (.file text) files.entries }
  | _, some (.file _) => .error .notDirectory
  | _, none => .error .notFound

/-- The names in the directory at a path, in order. -/
def names (files : Files) (path : String) : List String :=
  match files.locate path with
  | .error _ => []
  | .ok location =>
    files.entries.filterMap fun (other, _) =>
      match other.getLast? with
      | some name => if other.dropLast = location then some name else none
      | none => none

/-- The tree with a directory at a location, if nothing is there. -/
def addDirectory (files : Files) (location : Location) : Files :=
  match files.at? location with
  | some _ => files
  | none => { files with entries := Dict.insert location .directory files.entries }

/-- The tree with a directory at each place along a path where nothing is. -/
def makePath (files : Files) (path : String) : Files :=
  let start := if Path.isAbsolute path then [] else files.workingDirectory
  let step : Files × Location → String → Files × Location := fun (files, location) piece =>
    let location :=
      if Path.isIdle piece then location
      -- A directory that was made can be left again.
      else if piece = ".." then location.dropLast
      else location ++ [piece]
    (files.addDirectory location, location)
  ((Path.pieces path).foldl step (files, start)).1

/-- The tree without the file at a path. -/
def remove (files : Files) (path : String) : Files :=
  match files.locate path with
  | .error _ => files
  | .ok location => { files with entries := Dict.erase location files.entries }

end Files

end Textmate
