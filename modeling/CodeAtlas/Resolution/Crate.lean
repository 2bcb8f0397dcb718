import CodeAtlas.Resolution.Basic

/-!
# Where imports of Rust lead

A path goes through modules, from the root of the crate, from the module of the importer, from the
module around it, or from another crate of the workspace.
-/

namespace CodeAtlas.Resolution.Crate

/-- The file of a module: of its own name, or one in its directory. -/
def moduleFile? (index : FileIndex) (base : String) : Option String :=
  index.firstExisting? [base ++ ".rs", base ++ "/mod.rs"]

/-- Remove the ending `.rs` as often as it stands there.  The characters are in reverse. -/
def dropEndings : List Char → List Char
  | 's' :: 'r' :: '.' :: rest => dropEndings rest
  | characters => characters

/-- The directory of the modules that a file declares: its own if it is a root or stands for its
directory, and else the one of its name. -/
def moduleDirectory (path : String) : String :=
  let directory := Path.parent path
  let file := Path.basename path
  if file = "lib.rs" || file = "main.rs" || file = "mod.rs" then directory
  else
    Path.join directory (String.ofList (dropEndings file.toList.reverse).reverse)

/-- The nearest directory with the root file of a crate, from one directory on outwards. -/
def crateRootFrom? (index : FileIndex) (directory : String) : Option String :=
  if index.contains (Path.join directory "lib.rs") ||
      index.contains (Path.join directory "main.rs") then some directory
  else if _below : directory ≠ "" then crateRootFrom? index (Path.parent directory)
  else none
termination_by directory.length
decreasing_by exact Path.length_parent_lt _below

/-- The root of the crate of a file. -/
def crateRoot? (index : FileIndex) (importer : String) : Option String :=
  crateRootFrom? index (Path.parent importer)

/-- The root of another crate of the workspace; its directory may be written with hyphens. -/
def workspaceCrate? (index : FileIndex) (name : String) : Option String :=
  let hyphenated := String.ofList (Text.replaceChar '_' ['-'] name.toList)
  ([hyphenated, name].findSome? fun directory =>
    index.suffixMatch? (directory ++ "/src/lib.rs")).map Path.parent

/-- The file of the deepest module along a path below a directory, or else the root file of that
directory. -/
def deepestModule? (index : FileIndex) (base : String) (path : List String) : Option String :=
  let depths := (List.range path.length).reverse.map (· + 1)
  let along := depths.findSome? fun depth =>
    moduleFile? index (Path.join base (Path.ofSegments (path.take depth)))
  along.or (index.firstExisting? [Path.join base "lib.rs", Path.join base "main.rs",
    Path.join base "mod.rs", base ++ ".rs"])

/-- The files that the names below a path lead to.  A name that is no module, and the module
itself, lead to the deepest module along the path. -/
def filesWithin (index : FileIndex) (base : String) (path names : List String) : List String :=
  let file? (name : String) : Option String :=
    if name = "self" || name = "*" then none
    else moduleFile? index (Path.join base (Path.ofSegments (path ++ [name])))
  let files := names.filterMap file?
  let needsParent := names.isEmpty || names.any fun name => (file? name).isNone
  files ++ (if needsParent then (deepestModule? index base path).toList else [])

/-- The directory that so many directories above one lead to; there is none above the root. -/
def ancestor (directory : String) : Nat → String
  | 0 => directory
  | levels + 1 => ancestor (Path.parent directory) levels

/-- The segments of a path. -/
def pathSegments (path : String) : List String :=
  go [] path.toList
where
  /-- The segments that are not empty, given the characters of the current one in reverse. -/
  go (segment : List Char) : List Char → List String
    | [] => ofSegment segment
    | ':' :: ':' :: rest => ofSegment segment ++ go [] rest
    | c :: rest => go (c :: segment) rest
  ofSegment (segment : List Char) : List String :=
    if segment.isEmpty then [] else [String.ofList segment.reverse]

/-- Where an import leads. -/
def resolve (importer : String) (found : Import) (index : FileIndex) : Resolution :=
  let directory := moduleDirectory importer
  let within (base : String) (path : List String) : Resolution :=
    ofPaths (filesWithin index base path found.names).eraseDups
  if found.kind = .modDeclaration then
    ofPath? (moduleFile? index (Path.join directory found.module))
  else
    match pathSegments found.module with
    | [] => .unresolved
    | first :: rest =>
        if first = "crate" then
          match crateRoot? index importer with
          | some root => within root rest
          | none => .unresolved
        else if first = "self" then within directory rest
        else if first = "super" then
          let climbs := ((first :: rest).takeWhile (· == "super")).length
          within (ancestor directory climbs) ((first :: rest).drop climbs)
        else if Standard.isRust first then .standard
        -- A module beside the importer hides the crate of the workspace that has its name.
        else if (moduleFile? index (Path.join directory first)).isSome then
          within directory (first :: rest)
        else
          match workspaceCrate? index first with
          | some root => within root rest
          | none => .external first

end CodeAtlas.Resolution.Crate
