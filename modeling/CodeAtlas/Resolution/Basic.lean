import CodeAtlas.FileIndex
import CodeAtlas.Source.Outline
import CodeAtlas.Standard

/-!
# Where imports lead

An import leads to files of the project, to a package outside of it, to the standard library of
its language, or nowhere that is known.
-/

namespace CodeAtlas

/-- Where an import leads. -/
inductive Resolution
  | internal (paths : List String)
  | external (package : String)
  | standard
  | unresolved
deriving DecidableEq, Repr

namespace Resolution

/-- Files of the project, or nowhere if there are none. -/
def ofPaths (paths : List String) : Resolution :=
  if paths.isEmpty then .unresolved else .internal paths

/-- A file of the project, or nowhere. -/
def ofPath? (path : Option String) : Resolution := ofPaths path.toList

/-- The first pieces of a text between separators. -/
def firstPieces (separator : Char) (count : Nat) (text : String) : String :=
  String.ofList (Text.joinWith [separator] ((Text.splitOn separator text.toList).take count))

/-- A dotted name as a path. -/
def dottedPath (name : String) : String :=
  String.ofList (Text.replaceChar '.' ['/'] name.toList)

/-- A file never depends on itself, and on another one only once. -/
def withoutImporter (importer : String) : Resolution → Resolution
  | .internal paths => ofPaths (paths.filter (· != importer)).eraseDups
  | other => other

end Resolution

end CodeAtlas
