import CodeAtlas.Keyed
import CodeAtlas.Path

/-!
# The files of a project

The module paths of a project, for finding the files that imports name.  Listings are in ascending
order of the paths.
-/

namespace CodeAtlas

/-- The module paths of a project. -/
structure FileIndex where
  files : Keyed Unit
  /-- The path that the packages of the project begin with, if it is a Go module. -/
  goModule : Option String

namespace FileIndex

/-- The index of some paths. -/
def ofPaths (paths : List String) (goModule : Option String) : FileIndex :=
  ⟨.ofList (paths.map fun path => (path, ())), goModule⟩

/-- The paths in ascending order. -/
def paths (index : FileIndex) : List String := index.files.keys

def contains (index : FileIndex) (path : String) : Bool := index.files.contains path

def size (index : FileIndex) : Nat := index.files.size

/-- The first of some paths that is a file. -/
def firstExisting? (index : FileIndex) (candidates : List String) : Option String :=
  candidates.find? index.contains

/-- Whether the first of two paths is the better match of an ending: the shorter one in bytes, and
of two that are as long the smaller one. -/
def isBetter (first second : String) : Bool :=
  first.utf8ByteSize < second.utf8ByteSize ||
    (first.utf8ByteSize = second.utf8ByteSize && first < second)

/-- The best of some paths. -/
def best? : List String → Option String
  | [] => none
  | path :: rest =>
      match best? rest with
      | some other => some (if isBetter other path then other else path)
      | none => some path

/-- Whether a path is below a directory under any other. -/
def endsBelow (ending path : String) : Bool :=
  ("/" ++ ending).toList.isSuffixOf path.toList

/-- The file with a path, or else the best of those whose path ends with it after a slash. -/
def suffixMatch? (index : FileIndex) (ending : String) : Option String :=
  if ending = "" then none
  else if index.contains ending then some ending
  else best? (index.paths.filter (endsBelow ending))

/-- The files directly in a directory. -/
def filesIn (index : FileIndex) (directory : String) : List String :=
  index.paths.filter fun path => Path.parent path = directory

/-- The files directly in a directory whose path ends with the given one. -/
def filesInSuffix (index : FileIndex) (directory : String) : List String :=
  index.paths.filter fun path =>
    Path.parent path = directory || endsBelow directory (Path.parent path)

end FileIndex

end CodeAtlas
