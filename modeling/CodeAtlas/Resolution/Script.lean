import CodeAtlas.Resolution.Basic

/-!
# Where imports of TypeScript and JavaScript lead

A specifier is a path from the importer, a path from the source root, a module of the runtime, a
path from anywhere, or a package.
-/

namespace CodeAtlas.Resolution.Script

/-- The extensions that a specifier may leave out. -/
def extensions : List String := [".ts", ".tsx", ".d.ts", ".js", ".jsx", ".mjs", ".cjs"]

/-- The extensions of files that may be compiled from files with types. -/
def compiledExtensions : List String := [".js", ".jsx", ".mjs", ".cjs"]

/-- A text without an ending that it has. -/
def beforeEnding? (ending text : String) : Option String :=
  if text.endsWith ending then
    some (String.ofList (text.toList.take (text.length - ending.length)))
  else none

/-- The files that a path may mean: itself, the source that it is compiled from, with each
extension, and the index of a directory. -/
def candidates (base : String) : List String :=
  let sources := compiledExtensions.flatMap fun extension =>
    match beforeEnding? extension base with
    | some stem => [stem ++ ".ts", stem ++ ".tsx"]
    | none => []
  [base] ++ sources ++ extensions.map (base ++ ·) ++
    extensions.map (Path.join base "index" ++ ·)

/-- The file that a path means. -/
def file? (index : FileIndex) (base : String) : Option String :=
  index.firstExisting? (candidates base)

/-- Beginnings that stand for the source root, or else for the root. -/
def aliases : List String := ["@/", "~/"]

/-- What follows the first alias that fits. -/
def afterAlias? (specifier : String) : Option String :=
  aliases.findSome? fun name =>
    (Text.afterPrefix? name.toList specifier.toList).map String.ofList

/-- The package of a specifier; in a scope it has two segments. -/
def packageName (specifier : String) : String :=
  firstPieces '/' (if specifier.startsWith "@" then 2 else 1) specifier

/-- Where an import leads. -/
def resolve (importer : String) (found : Import) (index : FileIndex) : Resolution :=
  let specifier := String.ofList (found.module.toList.takeWhile fun c => c ≠ '?' && c ≠ '#')
  if specifier = "" then .unresolved
  else if specifier.startsWith "./" || specifier.startsWith "../" ||
      specifier.startsWith "/" then
    let path := if specifier.startsWith "/" then specifier
      else Path.join (Path.parent importer) specifier
    ofPath? ((Path.normalize? path).bind (file? index))
  else match afterAlias? specifier with
    | some rest => ofPath? (["src", ""].findSome? fun root => file? index (Path.join root rest))
    | none =>
        if Standard.isScript specifier then .standard
        else
          -- A single segment names a package, even if a file of the project ends so.
          let anywhere := !specifier.startsWith "@" && specifier.contains '/'
          let match? := if anywhere then (candidates specifier).findSome? index.suffixMatch?
            else none
          match match? with
          | some path => .internal [path]
          | none => .external (packageName specifier)

end CodeAtlas.Resolution.Script
