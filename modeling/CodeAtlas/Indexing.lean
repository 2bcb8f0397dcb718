import CodeAtlas.Resolution.Import
import CodeAtlas.Source.Reader
import CodeAtlas.Store
import CodeAtlas.Walk

/-!
# Indexing projects

A project is indexed by reading the outline of each of its source files and resolving the imports
among them.  Imports are resolved against all source files, also those that cannot be read; what
leads to one of those is left out.  The reader of the sources that are parsed to syntax trees is
given.
-/

namespace CodeAtlas

/-- Why a source file is not read. -/
inductive FileFault
  | tooLarge (size limit : Nat)
  | notText
deriving DecidableEq, Repr

namespace FileFault

/-- The wording of a fault. -/
def message : FileFault → String
  | .tooLarge size limit =>
      "file is " ++ toString size ++ " bytes, above the " ++ toString limit ++ " byte limit"
  | .notText => "file is not valid UTF-8"

end FileFault

/-- A source file that is not read. -/
structure FileFailure where
  path : String
  fault : FileFault
deriving DecidableEq, Repr

/-- How a project is indexed. -/
structure IndexOptions where
  project : String
  /-- The language of the project, or else that of its manifests. -/
  language : Option Language
  settings : IndexSettings

/-- What came of indexing. -/
structure IndexReport where
  graph : Graph
  failures : List FileFailure
  /-- The languages of the source files. -/
  languages : List Language
  /-- The learnings moved out of the old graph document before. -/
  migration : Migration

namespace SourceFile

/-- The text of a file whose size and content allow it to be read. -/
def text (limit : Nat) (file : SourceFile) : Except FileFault String :=
  if limit < file.size then .error (.tooLarge file.size limit)
  else match String.fromUTF8? file.content with
    | some text => .ok text
    | none => .error .notText

/-- The failure of a file that is not read. -/
def failure? (limit : Nat) (file : SourceFile) : Option FileFailure :=
  match file.text limit with
  | .error fault => some ⟨file.path, fault⟩
  | .ok _ => none

end SourceFile

/-- A source file that has been read. -/
structure ReadFile where
  path : String
  language : Language
  outline : Outline

namespace ReadFile

/-- The file read, if it can be. -/
def ofSource? (reader : SyntaxReader) (limit : Nat) (file : SourceFile) : Option ReadFile :=
  match file.text limit with
  | .ok text => some ⟨file.path, file.language, .ofSource reader file.language file.path text⟩
  | .error _ => none

/-- An import of a file, and where it leads. -/
structure Link where
  kind : EdgeKind
  names : List String
  /-- The modules that it leads to. -/
  modules : List String
  /-- The package that it leads to. -/
  package : Option String

namespace Link

/-- Everything that an import leads to. -/
def targets (link : Link) : List String := link.modules ++ link.package.toList

end Link

/-- The link of an import, if it leads to modules or to a package. -/
def link? (index : FileIndex) (modules : List String) (file : ReadFile) (found : Import) :
    Option Link :=
  match found.resolve file.language file.path index with
  | .internal paths =>
      let kept := paths.filter modules.contains
      if kept.isEmpty then none else some ⟨found.kind, found.names, kept, none⟩
  | .external package => some ⟨found.kind, found.names, [], some package⟩
  | .standard | .unresolved => none

/-- The links of a file in the order of its imports. -/
def links (index : FileIndex) (modules : List String) (file : ReadFile) : List Link :=
  file.outline.imports.filterMap (file.link? index modules)

/-- The module of a file. -/
def module (links : List Link) (file : ReadFile) : Module where
  path := file.path
  language := file.language
  lines := lineNumber file.outline.lineCount
  summary := file.outline.summary
  interfaces := file.outline.declarations.map (·.toInterface)
  internalDeps := (links.flatMap (·.modules)).eraseDups
  externalDeps := (links.flatMap (·.package.toList)).eraseDups

/-- The edges of a file, each once. -/
def edges (links : List Link) (file : ReadFile) : List Edge :=
  (links.flatMap fun link =>
    link.targets.map fun target => ⟨file.path, target, link.kind, link.names⟩).eraseDups

end ReadFile

namespace Graph

/-- Put a file and its edges into a graph. -/
def addFile (index : FileIndex) (modules : List String) (graph : Graph) (file : ReadFile) :
    Graph :=
  let links := file.links index modules
  let added := graph.insertModule (file.module links)
  { added with edges := added.edges ++ file.edges links }

/-- The graph of files that have been read. -/
def ofFiles (project : String) (now : Instant) (index : FileIndex) (files : List ReadFile) :
    Graph :=
  files.foldl (addFile index (files.map (·.path))) (.new project now)

end Graph

/-- The path of a Go module by the text of its manifest. -/
def goModuleOf? (text : String) : Option String :=
  let named (line : List Char) : Option (List Char) :=
    Text.afterPrefix? "module ".toList (Text.trim line)
  ((Text.lines text.toList).findSome? named).map fun name =>
    let bare := (Text.trim name).dropWhile (· = '"')
    String.ofList (Text.dropEndWhile (· = '"') bare)

/-- The path of the Go module at a root. -/
def Disk.goModule? (disk : Disk) (root : String) : Option String :=
  match disk.readText (Path.resolve root "go.mod") with
  | .ok text => goModuleOf? text
  | .error _ => none

namespace IndexOptions

/-- The options that settings of a project give. -/
def ofSettings (project : String) (language : Option Language) (settings : IndexSettings) :
    IndexOptions :=
  ⟨project, language, settings⟩

/-- The language that a project is indexed in. -/
def languageAt (options : IndexOptions) (disk : Disk) (root : String) :
    Except Problem Language :=
  match options.language.or (disk.language? root) with
  | some language => .ok language
  | none => .error (.notFound .projectLanguage root)

end IndexOptions

/-- The report of source files that have been found. -/
def IndexReport.ofFiles (reader : SyntaxReader) (options : IndexOptions)
    (goModule : Option String) (files : List SourceFile) (now : Instant) : IndexReport :=
  let limit := options.settings.maxFileBytes
  let index := FileIndex.ofPaths (files.map (·.path)) goModule
  let read := files.filterMap (ReadFile.ofSource? reader limit)
  { graph := .ofFiles options.project now index read
    failures := files.filterMap (·.failure? limit)
    languages := Language.all.filter fun language =>
      files.any fun file => decide (file.language = language)
    migration := .none }

/-- Index a project as it is.  Nothing is written. -/
def index (reader : SyntaxReader) (options : IndexOptions) (root : String) (disk : Disk)
    (now : Instant) : Except Problem IndexReport := do
  let language ← options.languageAt disk root
  let files ← disk.sourceFiles root language options.settings.extraExcludes
  let goModule := if language = .go then disk.goModule? root else none
  return .ofFiles reader options goModule files now

namespace Store

/-- Index the project of a store anew: move embedded learnings out of the old graph document,
replace it, and record the run. -/
def reindex (reader : SyntaxReader) (store : Store) (project : String)
    (language : Option Language) (now : Instant) : DiskAction IndexReport := do
  let migration ← store.migrateLegacyKnowledge now
  let options := IndexOptions.ofSettings project language store.settings.index
  let report ← DiskAction.inspect (CodeAtlas.index reader options store.root · now)
  store.saveGraph report.graph now
  let knowledge ← DiskAction.inspect (store.loadKnowledge · project now)
  let detail := toString report.graph.modules.size ++ " modules, " ++
    toString report.graph.edges.length ++ " edges, " ++
    toString report.failures.length ++ " failures"
  store.saveKnowledge (knowledge.recordRun .index detail now) now
  return { report with migration }

end Store

end CodeAtlas
