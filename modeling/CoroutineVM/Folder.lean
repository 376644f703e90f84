/-!
The files that the program can read.

A folder is known by what reading a path gives. `Folder.ofFiles` is the folder that holds given
files and nothing else: a path is followed part by part, empty parts and single dots stay where they
are, two dots go back, and nothing outside the folder is found.
-/

namespace CoroutineVM

/-- Why a file could not be read. -/
inductive FileError where
  | missing
  | isFolder
  | notFolder
  deriving DecidableEq, Repr

def FileError.message : FileError → String
  | .missing => "entity not found"
  | .isFolder => "is a directory"
  | .notFolder => "not a directory"

structure Folder where
  /-- The text of the file at a path. -/
  read : String → Except FileError String

namespace Folder

/-- The parts of a path. -/
def parts (path : String) : List String := path.splitOn "/"

/-- The text of the file at the place that these parts lead to. -/
def file? (files : List (String × String)) (place : List String) : Option String :=
  (files.find? (parts ·.1 = place)).map (·.2)

/-- Whether there is a folder at a place: the outermost one, or one that a file is in. -/
def hasFolder (files : List (String × String)) (place : List String) : Bool :=
  place.isEmpty ||
    files.any fun file =>
      place.isPrefixOf (parts file.1) && decide (place.length < (parts file.1).length)

/-- Follows the parts of a path from a place on. Only a folder can be passed through. -/
def follow (files : List (String × String)) (place : List String) :
    List String → Except FileError (List String)
  | [] => .ok place
  | part :: rest =>
    if (file? files place).isSome then .error .notFolder
    else if !hasFolder files place then .error .missing
    else if part = "" ∨ part = "." then follow files place rest
    else if part = ".." then
      if place.isEmpty then .error .missing else follow files place.dropLast rest
    else follow files (place ++ [part]) rest

/-- The folder with these files, whose paths have no dots and no empty parts. -/
def ofFiles (files : List (String × String)) : Folder where
  read path :=
    if path.isEmpty || path.startsWith "/" then .error .missing
    else do
      let place ← follow files [] (parts path)
      match file? files place with
      | some text => .ok text
      | none => .error (if hasFolder files place then .isFolder else .missing)

/-- The folder in which reading certain paths was tried beforehand; no other path is found. -/
def ofReadings (readings : List (String × Except FileError String)) : Folder where
  read path := (readings.lookup path).getD (.error .missing)

end Folder

end CoroutineVM
