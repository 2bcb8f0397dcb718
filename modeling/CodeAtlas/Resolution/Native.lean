import CodeAtlas.Resolution.Basic

/-!
# Where imports of Go, Java, C and C++ lead
-/

namespace CodeAtlas.Resolution

/-- What a path names below the path of a Go module: a directory, empty for the root. -/
def goDirectory? (module path : String) : Option String :=
  if path = module then some ""
  else (Text.afterPrefix? (module ++ "/").toList path.toList).map String.ofList

/-- An import of Go names a directory, and leads to all files in it but tests. -/
def resolveGo (found : Import) (index : FileIndex) : Resolution :=
  let path := found.module
  match index.goModule.bind fun module => goDirectory? module path with
  | some directory =>
      ofPaths ((index.filesIn directory).filter fun file =>
        file.endsWith ".go" && !file.endsWith "_test.go")
  | none =>
      if Standard.isGo path then .standard else .external (firstPieces '/' 3 path)

/-- An import of Java names a class, a member of a class, or all classes of a package. -/
def resolveJava (found : Import) (index : FileIndex) : Resolution :=
  if Standard.isJava found.module then .standard
  else
    let path := dottedPath found.module
    let files :=
      if found.names.contains "*" then
        (index.filesInSuffix path).filter (·.endsWith ".java")
      else
        ((index.suffixMatch? (path ++ ".java")).or
          (index.suffixMatch? (Path.parent path ++ ".java"))).toList
    if files.isEmpty then .external (firstPieces '.' 3 found.module) else .internal files

/-- The characters around the name of a header. -/
def isDelimiter (c : Char) : Bool := c = '"' || c = '<' || c = '>'

/-- A header in quotation marks is looked up beside the importer first; one in angle brackets
leads to a file of the project only if it is no standard header. -/
def resolveInclude (importer : String) (found : Import) (index : FileIndex) : Resolution :=
  let header := String.ofList
    (Text.dropEndWhile isDelimiter (found.module.toList.dropWhile isDelimiter))
  if header = "" then .unresolved
  else if found.module.startsWith "\"" then
    let beside := (Path.normalize? (Path.join (Path.parent importer) header)).bind fun path =>
      index.firstExisting? [path, header]
    match beside.or (index.suffixMatch? header) with
    | some path => .internal [path]
    | none => if Standard.isHeader header then .standard else .unresolved
  else if Standard.isHeader header then .standard
  else
    match index.suffixMatch? header with
    | some path => .internal [path]
    | none => .external (firstPieces '.' 1 (firstPieces '/' 1 header))

end CodeAtlas.Resolution
