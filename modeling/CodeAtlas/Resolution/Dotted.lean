import CodeAtlas.Resolution.Basic

/-!
# Where imports of Python lead

A dotted name is a path to a file, or to a directory with a file for the package.  Imports out of
a package may name its modules.
-/

namespace CodeAtlas.Resolution.Dotted

/-- The file of a module: of its own name, or the one for a package. -/
def moduleFile? (index : FileIndex) (base : String) : Option String :=
  index.firstExisting? [base ++ ".py", base ++ "/__init__.py"]

/-- A file, and the modules that an import out of it names if it is the file for a package. -/
def withModules (index : FileIndex) (found : String) (names : List String) : List String :=
  if found.endsWith "__init__.py" then
    let package := Path.parent found
    (names.filter (· != "*")).foldl (fun paths name =>
      match moduleFile? index (Path.join package name) with
      | some module => if paths.contains module then paths else paths ++ [module]
      | none => paths) [found]
  else [found]

/-- The directory that so many directories above one lead to, if there are as many. -/
def ancestor? (directory : String) : Nat → Option String
  | 0 => some directory
  | levels + 1 => if directory = "" then none else ancestor? (Path.parent directory) levels

/-- Where a relative import leads: one point is the package of the importer, and each further one
climbs one directory. -/
def resolveRelative (importer : String) (found : Import) (index : FileIndex) : Resolution :=
  match ancestor? (Path.parent importer) (found.level - 1) with
  | none => .unresolved
  | some directory =>
      if found.module = "" then
        let modules := found.names.filterMap fun name =>
          moduleFile? index (Path.join directory name)
        if modules.isEmpty then
          ofPath? (index.firstExisting? [Path.join directory "__init__.py"])
        else .internal modules
      else
        match moduleFile? index (Path.join directory (dottedPath found.module)) with
        | some file => .internal (withModules index file found.names)
        | none => .unresolved

/-- The directories that absolute imports are looked up in first. -/
def sourceRoots : List String := ["", "src", "lib"]

/-- Where an import leads. -/
def resolve (importer : String) (found : Import) (index : FileIndex) : Resolution :=
  if 0 < found.level then resolveRelative importer found index
  else
    let top := String.ofList (found.module.toList.takeWhile (· ≠ '.'))
    let base := dottedPath found.module
    -- A file of the project hides the module of the standard library that has its name, and that
    -- module hides the files that are found by their ending.
    match sourceRoots.findSome? fun root => moduleFile? index (Path.join root base) with
    | some file => .internal (withModules index file found.names)
    | none =>
        if Standard.isPython top then .standard
        else
          match (index.suffixMatch? (base ++ ".py")).or
              (index.suffixMatch? (base ++ "/__init__.py")) with
          | some file => .internal (withModules index file found.names)
          | none => .external top

end CodeAtlas.Resolution.Dotted
