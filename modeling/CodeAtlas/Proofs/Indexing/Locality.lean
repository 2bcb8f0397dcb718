import CodeAtlas.Proofs.Indexing.Report
import Mathlib.Data.List.Find

/-!
# Indexing is local

Imports are resolved among the paths of all source files, whether they can be read or not.  The
content of one file therefore shows in the rest of a graph only in whether something leads to that
file: two runs that differ in its content agree on everything else.
-/

namespace CodeAtlas

/-- A module without a dependency. -/
def Module.without (path : String) (module : Module) : Module :=
  { module with internalDeps := module.internalDeps.filter (· != path) }

/-- Two reports that agree on everything but one file and what leads to it. -/
structure IndexReport.AgreesBut (changed : String) (first second : IndexReport) : Prop where
  failures : first.failures.filter (·.path != changed) =
    second.failures.filter (·.path != changed)
  modules : ∀ path, path ≠ changed →
    (first.graph.module? path).map (·.without changed) =
      (second.graph.module? path).map (·.without changed)
  edges : ∀ path, path ≠ changed →
    (first.graph.edgesFrom path).filter (·.target != changed) =
      (second.graph.edgesFrom path).filter (·.target != changed)

/-! ## One file among two lists of modules -/

/-- Two lists of modules that have the same members but for one. -/
def SameBut (changed : String) (first second : List String) : Prop :=
  ∀ path, path ≠ changed → (path ∈ first ↔ path ∈ second)

namespace ReadFile

variable {index : FileIndex} {first second : List String} {changed : String}

theorem modulesOf_sameBut (same : SameBut changed first second) (file : ReadFile)
    (found : Import) :
    (file.modulesOf index first found).filter (· != changed) =
      (file.modulesOf index second found).filter (· != changed) := by
  rw [modulesOf, modulesOf, List.filter_filter, List.filter_filter]
  refine List.filter_congr fun path _ => ?_
  by_cases isChanged : path = changed
  · simp [isChanged]
  · have contained : first.contains path = second.contains path := by
      rw [Bool.eq_iff_iff, List.contains_iff_mem, List.contains_iff_mem, same path isChanged]
    rw [contained]

theorem edgesOf_sameBut (same : SameBut changed first second) (file : ReadFile)
    (found : Import) :
    (file.edgesOf index first found).filter (·.target != changed) =
      (file.edgesOf index second found).filter (·.target != changed) := by
  have targets : (file.targetsOf index first found).filter (· != changed) =
      (file.targetsOf index second found).filter (· != changed) := by
    rw [targetsOf, targetsOf, List.filter_append, List.filter_append,
      modulesOf_sameBut same file found]
  rw [edgesOf, edgesOf, List.filter_map, List.filter_map]
  exact congrArg (List.map _) targets

theorem module_sameBut (same : SameBut changed first second) (file : ReadFile) :
    (file.module (file.links index first)).without changed =
      (file.module (file.links index second)).without changed := by
  have internal : (file.module (file.links index first)).internalDeps.filter (· != changed) =
      (file.module (file.links index second)).internalDeps.filter (· != changed) := by
    rw [internalDeps_eq, internalDeps_eq, filter_eraseDups, filter_eraseDups, List.filter_flatMap,
      List.filter_flatMap]
    simp only [modulesOf_sameBut same file]
  have external : (file.module (file.links index first)).externalDeps =
      (file.module (file.links index second)).externalDeps := by
    rw [externalDeps_eq, externalDeps_eq]
  rw [Module.without, Module.without, internal, external]
  rfl

theorem edges_sameBut (same : SameBut changed first second) (file : ReadFile) :
    (file.edges (file.links index first)).filter (·.target != changed) =
      (file.edges (file.links index second)).filter (·.target != changed) := by
  rw [edges_eq, edges_eq, filter_eraseDups, filter_eraseDups, List.filter_flatMap,
    List.filter_flatMap]
  simp only [edgesOf_sameBut same file]

end ReadFile

/-! ## Two lists of files -/

/-- What is kept of files under their paths, without one path, is what is kept of the other
files. -/
theorem filter_filterMap_path {α : Type} {view : SourceFile → Option α} {label : α → String}
    (labeled : ∀ file item, view file = some item → label item = file.path)
    (changed : String) (files : List SourceFile) :
    (files.filterMap view).filter (label · != changed) =
      (files.filter (·.path != changed)).filterMap view := by
  induction files with
  | nil => rfl
  | cons file rest induction =>
      cases shown : view file with
      | none =>
          by_cases isChanged : file.path = changed <;>
            simp [shown, isChanged, induction]
      | some item =>
          by_cases isChanged : file.path = changed <;>
            simp [shown, labeled file item shown, isChanged, induction]

theorem SourceFile.failures_without (limit : Nat) (changed : String) (files : List SourceFile) :
    (files.filterMap (·.failure? limit)).filter (·.path != changed) =
      (files.filter (·.path != changed)).filterMap (·.failure? limit) := by
  refine filter_filterMap_path ?_ changed files
  intro file failure isFailure
  rw [failure?] at isFailure
  split at isFailure
  next => rw [← Option.some.inj isFailure]
  next => cases isFailure

theorem ReadFile.ofSources_without (reader : SyntaxReader) (limit : Nat) (changed : String)
    (files : List SourceFile) :
    (ofSources reader limit files).filter (·.path != changed) =
      ofSources reader limit (files.filter (·.path != changed)) :=
  filter_filterMap_path (fun _ _ isRead => (ofSource?_eq_some_iff.mp isRead).1) changed files

namespace Graph

variable {project : String} {firstNow secondNow : Instant} {index : FileIndex}
  {first second : List ReadFile} {changed : String}

theorem sameBut_paths
    (same : first.filter (·.path != changed) = second.filter (·.path != changed)) :
    SameBut changed (first.map (·.path)) (second.map (·.path)) := by
  have kept {files : List ReadFile} {path : String} (different : path ≠ changed) :
      path ∈ files.map (·.path) ↔ path ∈ (files.filter (·.path != changed)).map (·.path) := by
    simp only [List.mem_map, List.mem_filter, bne_iff_ne]
    constructor
    · intro known
      obtain ⟨file, member, rfl⟩ := known
      exact ⟨file, ⟨member, different⟩, rfl⟩
    · intro known
      obtain ⟨file, ⟨member, _⟩, rfl⟩ := known
      exact ⟨file, member, rfl⟩
  intro path different
  rw [kept different, same, ← kept different]

theorem module?_sameBut
    (same : first.filter (·.path != changed) = second.filter (·.path != changed)) {path : String}
    (different : path ≠ changed) :
    ((ofFiles project firstNow index first).module? path).map (·.without changed) =
      ((ofFiles project secondNow index second).module? path).map (·.without changed) := by
  -- The changed file is passed over when another path is looked up.
  have kept (files : List ReadFile) : files.reverse.find? (·.path == path) =
      (files.filter (·.path != changed)).reverse.find? (·.path == path) := by
    rw [← List.filter_reverse, List.find?_filter]
    refine List.find?_congr fun file _ => ?_
    by_cases isPath : file.path = path
    · simp [isPath, different]
    · simp [isPath]
  rw [module?_ofFiles_eq_map, module?_ofFiles_eq_map, kept first, kept second, same,
    Option.map_map, Option.map_map]
  refine congrArg (Option.map · _) (funext fun file => ?_)
  exact ReadFile.module_sameBut (sameBut_paths same) file

theorem edgesFrom_sameBut
    (same : first.filter (·.path != changed) = second.filter (·.path != changed)) {path : String}
    (different : path ≠ changed) :
    ((ofFiles project firstNow index first).edgesFrom path).filter (·.target != changed) =
      ((ofFiles project secondNow index second).edgesFrom path).filter (·.target != changed) := by
  have kept (files : List ReadFile) : files.filter (·.path == path) =
      (files.filter (·.path != changed)).filter (·.path == path) := by
    rw [List.filter_filter]
    refine List.filter_congr fun file _ => ?_
    by_cases isPath : file.path = path
    · simp [isPath, different]
    · simp [isPath]
  rw [edgesFrom_ofFiles, edgesFrom_ofFiles, kept first, kept second, same, List.filter_flatMap,
    List.filter_flatMap]
  simp only [edgesOf, ReadFile.edges_sameBut (sameBut_paths same)]

end Graph

/-! ## Two runs -/

section Runs

variable {reader : SyntaxReader} {options : IndexOptions} {root changed : String}
  {language : Language} {first second : Disk} {firstFiles secondFiles : List SourceFile}
  {firstNow secondNow : Instant}

theorem goModule?_congr
    (same : first.read (Path.resolve root "go.mod") = second.read (Path.resolve root "go.mod")) :
    first.goModule? root = second.goModule? root := by
  rw [Disk.goModule?, Disk.goModule?, Disk.readText, Disk.readText, same]

theorem agreesBut_ofFiles {goModule : Option String}
    (samePaths : firstFiles.map (·.path) = secondFiles.map (·.path))
    (sameOthers : firstFiles.filter (·.path != changed) =
      secondFiles.filter (·.path != changed)) :
    (IndexReport.ofFiles reader options goModule firstFiles firstNow).AgreesBut changed
      (IndexReport.ofFiles reader options goModule secondFiles secondNow) := by
  have sameRead : (ReadFile.ofSources reader options.settings.maxFileBytes firstFiles).filter
        (·.path != changed) =
      (ReadFile.ofSources reader options.settings.maxFileBytes secondFiles).filter
        (·.path != changed) := by
    rw [ReadFile.ofSources_without, ReadFile.ofSources_without, sameOthers]
  refine { failures := ?_, modules := ?_, edges := ?_ }
  · rw [IndexReport.ofFiles, IndexReport.ofFiles, SourceFile.failures_without,
      SourceFile.failures_without, sameOthers]
  · intro path different
    rw [IndexReport.ofFiles, IndexReport.ofFiles, samePaths]
    exact Graph.module?_sameBut sameRead different
  · intro path different
    rw [IndexReport.ofFiles, IndexReport.ofFiles, samePaths]
    exact Graph.edgesFrom_sameBut sameRead different

/-- The packages of a module come from imports that lead to no source file, read or not. -/
theorem exists_import_of_package {goModule : Option String} {files : List SourceFile}
    {path package : String} {module : Module}
    (found : (IndexReport.ofFiles reader options goModule files firstNow).graph.module? path =
      some module)
    (member : package ∈ module.externalDeps) :
    ∃ file ∈ ReadFile.ofSources reader options.settings.maxFileBytes files, file.path = path ∧
      ∃ import' ∈ file.outline.imports,
        file.resolution (.ofPaths (files.map (·.path)) goModule) import' = .external package := by
  obtain ⟨file, fileMember, samePath, rfl⟩ := Graph.exists_file_of_module? found
  exact ⟨file, fileMember, samePath, ReadFile.mem_externalDeps_iff.mp member⟩

/-- Two runs on trees that differ in the content of one source file agree on everything but that
file and what leads to it, and no import of a source file becomes a package. -/
theorem index_is_local (firstNow secondNow : Instant)
    (declared : options.language = some language)
    (firstWalked :
      first.sourceFiles root language options.settings.extraExcludes = .ok firstFiles)
    (secondWalked :
      second.sourceFiles root language options.settings.extraExcludes = .ok secondFiles)
    (samePaths : firstFiles.map (·.path) = secondFiles.map (·.path))
    (sameOthers : firstFiles.filter (·.path != changed) =
      secondFiles.filter (·.path != changed))
    (sameGoModule :
      first.read (Path.resolve root "go.mod") = second.read (Path.resolve root "go.mod")) :
    ∃ firstReport secondReport, index reader options root first firstNow = .ok firstReport ∧
      index reader options root second secondNow = .ok secondReport ∧
      firstReport.AgreesBut changed secondReport ∧
      ∀ path module, firstReport.graph.module? path = some module →
        ∀ package ∈ module.externalDeps,
          ∃ file ∈ ReadFile.ofSources reader options.settings.maxFileBytes firstFiles,
            file.path = path ∧ ∃ found ∈ file.outline.imports,
              file.resolution (first.fileIndex root language firstFiles) found =
                .external package := by
  have known (disk : Disk) : options.languageAt disk root = .ok language := by
    rw [IndexOptions.languageAt, declared]
    rfl
  refine ⟨_, _, index_eq_ok_iff.mpr ⟨language, firstFiles, known first, firstWalked, rfl⟩,
    index_eq_ok_iff.mpr ⟨language, secondFiles, known second, secondWalked, rfl⟩, ?_, ?_⟩
  · rw [goModule?_congr sameGoModule]
    exact agreesBut_ofFiles samePaths sameOthers
  · intro path module found package member
    exact exists_import_of_package found member

end Runs

/-- A module that imports another one, whose content is given. -/
def importDisk (content : ByteArray) : Disk :=
  ⟨.ofList [("a.py", .file "import b\nimport numpy\n".toUTF8 default),
    ("b.py", .file content default)], []⟩

def importSources (content : ByteArray) : List SourceFile :=
  [⟨"a.py", .python, "import b\nimport numpy\n".toUTF8⟩, ⟨"b.py", .python, content⟩]

theorem index_imported_no_text :
    ∃ firstReport secondReport,
      index .ofLexemes ⟨"local", some .python, ⟨[], 1000⟩⟩ "/" (importDisk "import a\n".toUTF8)
          default = .ok firstReport ∧
      index .ofLexemes ⟨"local", some .python, ⟨[], 1000⟩⟩ "/" (importDisk ⟨#[255]⟩)
          default = .ok secondReport ∧
      firstReport.AgreesBut "b.py" secondReport := by
  have firstEvaluated : ((importDisk "import a\n".toUTF8).sourceFiles "/" .python
      []).toOption.map id = some (importSources "import a\n".toUTF8) := by
    decide +kernel
  have secondEvaluated : ((importDisk ⟨#[255]⟩).sourceFiles "/" .python []).toOption.map id =
      some (importSources ⟨#[255]⟩) := by
    decide +kernel
  obtain ⟨_, firstWalked, rfl⟩ := map_toOption_eq_some_iff.mp firstEvaluated
  obtain ⟨_, secondWalked, rfl⟩ := map_toOption_eq_some_iff.mp secondEvaluated
  have samePaths : (importSources "import a\n".toUTF8).map (·.path) =
      (importSources ⟨#[255]⟩).map (·.path) := rfl
  have sameOthers : (importSources "import a\n".toUTF8).filter (·.path != "b.py") =
      (importSources ⟨#[255]⟩).filter (·.path != "b.py") := by
    decide +kernel
  have sameGoModule : (importDisk "import a\n".toUTF8).read (Path.resolve "/" "go.mod") =
      (importDisk ⟨#[255]⟩).read (Path.resolve "/" "go.mod") := by
    decide +kernel
  have declared : (IndexOptions.mk "local" (some .python) ⟨[], 1000⟩).language =
      some .python := rfl
  obtain ⟨firstReport, secondReport, firstSuccess, secondSuccess, agrees, _⟩ :=
    index_is_local default default declared firstWalked secondWalked samePaths sameOthers
      sameGoModule
  exact ⟨firstReport, secondReport, firstSuccess, secondSuccess, agrees⟩

end CodeAtlas
