import CodeAtlas.Proofs.Graph.Reachability
import CodeAtlas.Proofs.Indexing.Consistency
import CodeAtlas.Proofs.Resolution.Package
import CodeAtlas.Source.Lexeme

/-!
# Reading dependencies back from edges

An edge shows its target and not whether that is a module or a package.  The dependencies of a
module can be read back from its edges exactly when no import leads to a package that is named
like a module of the project.  Imports of Python, C and C++ never do.
-/

namespace CodeAtlas

/-- What a module depends on is what its edges are read as. -/
structure Module.ReadsBack (graph : Graph) (path : String) (module : Module) : Prop where
  internal : ∀ target, target ∈ module.internalDeps ↔
    ∃ edge ∈ graph.internalEdges, edge.source = path ∧ edge.target = target
  external : ∀ package, package ∈ module.externalDeps ↔
    ∃ edge ∈ graph.externalEdges, edge.source = path ∧ edge.target = package
  viewed : ∀ target, target ∈ module.internalDeps ↔ target ∈ graph.dependencies path
  notItself : ∀ edge ∈ graph.edges, edge.source = path → edge.target ≠ path

namespace Graph

variable {graph : Graph} {path : String} {module : Module}

theorem exists_internalEdge_iff {target : String} :
    (∃ edge ∈ graph.internalEdges, edge.source = path ∧ edge.target = target) ↔
      graph.contains target = true ∧
        ∃ edge ∈ graph.edges, edge.source = path ∧ edge.target = target := by
  simp only [internalEdges, List.mem_filter]
  constructor
  · intro internal
    obtain ⟨edge, ⟨member, contained⟩, source, rfl⟩ := internal
    exact ⟨contained, edge, member, source, rfl⟩
  · intro known
    obtain ⟨contained, edge, member, source, rfl⟩ := known
    exact ⟨edge, ⟨member, contained⟩, source, rfl⟩

theorem exists_externalEdge_iff {target : String} :
    (∃ edge ∈ graph.externalEdges, edge.source = path ∧ edge.target = target) ↔
      graph.contains target = false ∧
        ∃ edge ∈ graph.edges, edge.source = path ∧ edge.target = target := by
  simp only [externalEdges, List.mem_filter, Bool.not_eq_true']
  constructor
  · intro external
    obtain ⟨edge, ⟨member, outside⟩, source, rfl⟩ := external
    exact ⟨outside, edge, member, source, rfl⟩
  · intro outside
    obtain ⟨outside, edge, member, source, rfl⟩ := outside
    exact ⟨edge, ⟨member, outside⟩, source, rfl⟩

/-- A module that is in step reads back exactly when none of its packages is named like a
module. -/
theorem readsBack_iff (found : graph.module? path = some module)
    (inStep : module.InStep graph path)
    (targets : ∀ target, (∃ edge ∈ graph.edges, edge.source = path ∧ edge.target = target) ↔
      target ∈ module.internalDeps ∨ target ∈ module.externalDeps) :
    module.ReadsBack graph path ↔
      ∀ package ∈ module.externalDeps, graph.contains package = false := by
  constructor
  · intro readsBack package depends
    exact (exists_externalEdge_iff.mp ((readsBack.external package).mp depends)).1
  · intro apart
    have known : graph.contains path = true := Option.isSome_iff_exists.mpr ⟨module, found⟩
    -- A name stands for a module or for a package, and the graph decides which.
    have not_external {target : String} (contained : graph.contains target = true) :
        target ∉ module.externalDeps := by
      intro depends
      rw [apart target depends] at contained
      cases contained
    refine { internal := ?_, external := ?_, viewed := ?_, notItself := ?_ }
    · intro target
      rw [exists_internalEdge_iff, targets]
      constructor
      · intro depends
        exact ⟨inStep.internalKnown target depends, .inl depends⟩
      · intro known
        obtain ⟨contained, depends⟩ := known
        exact depends.resolve_right (not_external contained)
    · intro package
      rw [exists_externalEdge_iff, targets]
      constructor
      · intro depends
        exact ⟨apart package depends, .inr depends⟩
      · intro outside
        obtain ⟨outside, depends⟩ := outside
        refine depends.resolve_left ?_
        intro internal
        rw [inStep.internalKnown package internal] at outside
        cases outside
    · intro target
      rw [mem_dependencies_iff, targets, ← contains_iff_mem_keys]
      constructor
      · intro depends
        refine ⟨known, inStep.internalKnown target depends, ?_, .inl depends⟩
        intro same
        subst same
        exact inStep.notItself depends
      · intro listed
        obtain ⟨_, contained, _, depends⟩ := listed
        exact depends.resolve_right (not_external contained)
    · intro edge member source same
      rcases (targets path).mp ⟨edge, member, source, same⟩ with internal | external
      · exact inStep.notItself internal
      · exact not_external known external

section OfFiles

variable {project : String} {now : Instant} {index : FileIndex} {files : List ReadFile}

theorem targets_ofFiles (distinct : (files.map (·.path)).Nodup) {file : ReadFile}
    (member : file ∈ files) (target : String) :
    (∃ edge ∈ (ofFiles project now index files).edges,
        edge.source = file.path ∧ edge.target = target) ↔
      target ∈ (moduleOf index files file).internalDeps ∨
        target ∈ (moduleOf index files file).externalDeps := by
  have edges : (ofFiles project now index files).edgesFrom file.path = edgesOf index files file :=
    edgesFrom_ofFiles_path distinct member
  rw [moduleOf, ← ReadFile.exists_edge_iff, ← edgesOf, ← edges]
  simp only [mem_edgesFrom_iff, and_assoc]

/-- The module of a file reads back exactly when no import of the file leads to a package that
is named like a module. -/
theorem readsBack_ofFiles_iff (distinct : (files.map (·.path)).Nodup) {file : ReadFile}
    (member : file ∈ files) :
    (moduleOf index files file).ReadsBack (ofFiles project now index files) file.path ↔
      ∀ found ∈ file.outline.imports, ∀ package,
        file.resolution index found = .external package →
          package ∉ files.map (·.path) := by
  have found : (ofFiles project now index files).module? file.path =
      some (moduleOf index files file) := module?_ofFiles distinct member
  rw [readsBack_iff found (inStep_ofFiles distinct found) (targets_ofFiles distinct member)]
  simp only [moduleOf, ReadFile.mem_externalDeps_iff, ← Bool.not_eq_true, contains_ofFiles]
  constructor
  · intro apart importLine imported package leads
    exact apart package ⟨importLine, imported, leads⟩
  · intro apart package depends
    obtain ⟨importLine, imported, leads⟩ := depends
    exact apart importLine imported package leads

end OfFiles

end Graph

/-- The path of a file that can be read has an extension. -/
theorem ReadFile.point_mem_of_mem_ofSources {disk : Disk} {root : String} {language : Language}
    {excludes : List String} {files : List SourceFile} {reader : SyntaxReader} {limit : Nat}
    (walked : disk.sourceFiles root language excludes = .ok files) {path : String}
    (member : path ∈ (ofSources reader limit files).map (·.path)) : '.' ∈ path.toList := by
  obtain ⟨read, readMember, rfl⟩ := List.mem_map.mp member
  obtain ⟨file, fileMember, ofFile⟩ := mem_ofSources_iff.mp readMember
  rw [(ofSource?_eq_some_iff.mp ofFile).1]
  exact Path.point_mem_of_language (Disk.language_of_mem_sourceFiles walked fileMember).1

/-- The targets of the edges of a module show what it depends on exactly when no import of its
file leads to a package that is named like a module; in Python, C and C++ they always do. -/
theorem index_readsBack_iff {reader : SyntaxReader} {options : IndexOptions} {root : String}
    {disk : Disk} {now : Instant} {report : IndexReport}
    (named : ∀ name ∈ disk.working, Path.IsName name)
    (success : index reader options root disk now = .ok report) :
    ∃ language files, options.languageAt disk root = .ok language ∧
      disk.sourceFiles root language options.settings.extraExcludes = .ok files ∧
      ∀ path module, report.graph.module? path = some module →
        ∃ file ∈ ReadFile.ofSources reader options.settings.maxFileBytes files, file.path = path ∧
          (module.ReadsBack report.graph path ↔
            ∀ found ∈ file.outline.imports, ∀ package,
              file.resolution (disk.fileIndex root language files) found = .external package →
                report.graph.contains package = false) ∧
          (module.language.hasPlainPackages = true → module.ReadsBack report.graph path) := by
  obtain ⟨language, files, known, walked, rfl⟩ := index_eq_ok_iff.mp success
  have ascending := readPaths_ascending named walked reader options.settings.maxFileBytes
  have distinct := nodup_of_ascending ascending
  rw [graph_ofFiles]
  refine ⟨language, files, known, walked, ?_⟩
  intro path module found
  obtain ⟨file, member, rfl, rfl⟩ := Graph.exists_file_of_module? found
  refine ⟨file, member, rfl, ?_, ?_⟩
  · rw [Graph.readsBack_ofFiles_iff distinct member]
    simp only [← Bool.not_eq_true, Graph.contains_ofFiles]
  · intro plain
    rw [Graph.readsBack_ofFiles_iff distinct member]
    intro imported _ package leads contained
    exact Import.point_not_mem_of_external plain leads
      (ReadFile.point_mem_of_mem_ofSources walked contained)

theorem repeated_import_readsBack :
    ∃ report, index .ofLexemes ⟨"repeated", some .python, ⟨[], 1000⟩⟩ "/" repeatedImportDisk
        default = .ok report ∧
      ∃ module, report.graph.module? "a.py" = some module ∧
        module.ReadsBack report.graph "a.py" := by
  have evaluated : (index .ofLexemes ⟨"repeated", some .python, ⟨[], 1000⟩⟩ "/"
      repeatedImportDisk default).toOption.map (fun report =>
        (report.graph.module? "a.py").map (·.language)) = some (some .python) := by
    decide +kernel
  obtain ⟨report, success, found⟩ := map_toOption_eq_some_iff.mp evaluated
  obtain ⟨module, found, language⟩ := Option.map_eq_some_iff.mp found
  have named : ∀ name ∈ repeatedImportDisk.working, Path.IsName name := by decide
  obtain ⟨_, _, _, _, modules⟩ := index_readsBack_iff named success
  obtain ⟨_, _, _, _, plain⟩ := modules "a.py" module found
  exact ⟨report, success, module, found, plain (by rw [language]; rfl)⟩

/-- A project whose only file is named like the package that it imports. -/
def namesakeDisk : Disk :=
  ⟨.ofList [("chart.js", .file "import \"chart.js\";\n".toUTF8 default)], []⟩

def namesakeSource : SourceFile := ⟨"chart.js", .javaScript, "import \"chart.js\";\n".toUTF8⟩

def namesakeFile : ReadFile :=
  ⟨"chart.js", .javaScript, .ofSource .ofLexemes .javaScript "chart.js" "import \"chart.js\";\n"⟩

theorem imports_namesakeFile :
    namesakeFile.outline.imports = [⟨"chart.js", none, [], 0, .importStatement, 1⟩] := by
  have dialect : Source.Script.dialectOf? .javaScript "chart.js" = some ⟨false, true⟩ := by
    decide +kernel
  change (Source.Script.outline .javaScript "chart.js" "import \"chart.js\";\n").imports = _
  rw [Source.Script.outline, dialect]
  change Source.Script.imports none false (Source.Script.tokens ⟨false, true⟩ _) = _
  rw [Source.Script.tokens, Source.Lexeme.readAll_eq_readUpTo]
  decide +kernel

theorem resolution_namesakeFile :
    namesakeFile.resolution (namesakeDisk.fileIndex "/" .javaScript [namesakeSource])
      ⟨"chart.js", none, [], 0, .importStatement, 1⟩ = .external "chart.js" := by
  rw [ReadFile.resolution, Import.resolve.eq_def, Resolution.withoutImporter_eq_external_iff]
  change Resolution.Script.resolve "chart.js" _ _ = _
  rw [Resolution.Script.resolve]
  simp only [String.contains_char_eq]
  decide +kernel

/-- An import of a package that is named like its own file becomes an edge from the file to
itself. -/
theorem namesake_not_readBack :
    ∃ report, index .ofLexemes ⟨"demo", some .javaScript, ⟨[], 1000⟩⟩ "/" namesakeDisk default =
        .ok report ∧
      (∃ edge ∈ report.graph.edges, edge.source = "chart.js" ∧ edge.target = "chart.js") ∧
      ∃ module, report.graph.module? "chart.js" = some module ∧
        "chart.js" ∈ module.externalDeps ∧ ¬module.ReadsBack report.graph "chart.js" := by
  have evaluated : (namesakeDisk.sourceFiles "/" .javaScript []).toOption.map id =
      some [namesakeSource] := by
    decide +kernel
  obtain ⟨_, walked, rfl⟩ := map_toOption_eq_some_iff.mp evaluated
  -- The general theorems apply to the file once its only import is known to lead to a package.
  let index := namesakeDisk.fileIndex "/" .javaScript [namesakeSource]
  have distinct : ([namesakeFile].map (·.path)).Nodup := List.nodup_singleton _
  have member : namesakeFile ∈ [namesakeFile] := List.mem_singleton.mpr rfl
  have imported : ∃ found ∈ namesakeFile.outline.imports,
      namesakeFile.resolution index found = .external "chart.js" := by
    rw [imports_namesakeFile]
    exact ⟨_, List.mem_singleton.mpr rfl, resolution_namesakeFile⟩
  have depends : "chart.js" ∈ (Graph.moduleOf index [namesakeFile] namesakeFile).externalDeps :=
    ReadFile.mem_externalDeps_iff.mpr imported
  refine ⟨_, index_eq_ok_iff.mpr ⟨.javaScript, [namesakeSource], rfl, walked, rfl⟩, ?_,
    Graph.moduleOf index [namesakeFile] namesakeFile, ?_, depends, ?_⟩
  · exact (Graph.targets_ofFiles distinct member "chart.js").mpr (.inr depends)
  · exact Graph.module?_ofFiles distinct member
  · intro readsBack
    obtain ⟨found, foundMember, leads⟩ := imported
    exact (Graph.readsBack_ofFiles_iff distinct member).mp readsBack found foundMember "chart.js"
      leads (List.mem_singleton.mpr rfl)

end CodeAtlas
