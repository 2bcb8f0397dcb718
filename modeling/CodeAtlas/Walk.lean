import CodeAtlas.Disk
import CodeAtlas.Language

/-!
# Walking a project

The source files of a project: those of a language that the language of the project covers, in no
directory that is skipped, in ascending order of their module paths.
-/

namespace CodeAtlas

/-- A file selected for reading. -/
structure SourceFile where
  /-- Its path from the root, with slashes. -/
  path : String
  language : Language
  content : ByteArray

namespace SourceFile

/-- The size in bytes. -/
def size (file : SourceFile) : Nat := file.content.size

end SourceFile

namespace Disk

/-- Names of directories that are always skipped: version control, build output, and code of
others. -/
def skippedDirectories : List String :=
  [".git", ".hg", ".svn", ".scion", "node_modules", "target", "build", "dist", "out", "vendor",
    "third_party", "__pycache__", ".venv", "venv", ".tox", ".mypy_cache", ".pytest_cache",
    ".next", ".gradle", "coverage"]

/-- Whether a file is in a directory below the root that is skipped. -/
def isSkipped (excludes segments : List String) : Bool :=
  segments.dropLast.any fun directory =>
    skippedDirectories.contains directory || excludes.contains directory

/-- The source file that a found file is, if it is one. -/
def sourceFile? (language : Language) (excludes : List String) (found : Found) :
    Option SourceFile := do
  let path := Path.ofSegments found.segments
  let own ← Language.ofPath? path
  if language.covers own && !isSkipped excludes found.segments then
    some ⟨path, own, found.content⟩
  else none

/-- The source files below a root. -/
def sourceFiles (disk : Disk) (root : String) (language : Language) (excludes : List String) :
    Except Problem (List SourceFile) :=
  if disk.isDirectory root then
    .ok ((disk.filesBelow root).filterMap (sourceFile? language excludes))
  else .error (.notFound .projectRoot root)

/-- The files that mark the language of a project, in the order in which they count. -/
def manifests : List (String × Language) :=
  [("Cargo.toml", .rust), ("tsconfig.json", .typeScript), ("package.json", .javaScript),
    ("go.mod", .go), ("pyproject.toml", .python), ("setup.py", .python),
    ("requirements.txt", .python), ("pom.xml", .java), ("build.gradle", .java),
    ("build.gradle.kts", .java), ("CMakeLists.txt", .cpp), ("Makefile", .c)]

/-- The languages that have a manifest at a root, each once. -/
def languages (disk : Disk) (root : String) : List Language :=
  let marked := manifests.filter fun manifest => disk.isFile (Path.resolve root manifest.1)
  (marked.map (·.2)).eraseDups

/-- The language of a project by its manifests. -/
def language? (disk : Disk) (root : String) : Option Language := (disk.languages root).head?

end Disk

end CodeAtlas
