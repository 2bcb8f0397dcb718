import CodeAtlas.Proofs.Indexing.Report

/-!
# Consistency of indexed graphs

The modules and the edges of a graph are kept apart, and indexing keeps them in step: what a
module depends on is what its edges lead to, nothing is listed twice, and edges stand in the order
of the modules and, for one module, in that of its imports.
-/

namespace CodeAtlas

/-- What a module under a path has in common with the edges of its graph. -/
structure Module.InStep (graph : Graph) (path : String) (module : Module) : Prop where
  ownPath : module.path = path
  internalOnce : module.internalDeps.Nodup
  externalOnce : module.externalDeps.Nodup
  notItself : path ∉ module.internalDeps
  internalKnown : ∀ target ∈ module.internalDeps, graph.contains target = true
  internalEdge : ∀ target ∈ module.internalDeps, ∃ edge ∈ graph.edgesFrom path,
    edge.target = target
  externalEdge : ∀ package ∈ module.externalDeps, ∃ edge ∈ graph.edgesFrom path,
    edge.target = package

/-- A graph whose modules and edges are in step. -/
structure Graph.IsConsistent (graph : Graph) : Prop where
  noViolations : graph.violations = []
  modules : ∀ path module, graph.module? path = some module → module.InStep graph path
  edgesOnce : graph.edges.Nodup
  sourcesAscending : graph.edges.Pairwise fun first second => first.source ≤ second.source

/-- Edges that the imports of a file yield, in the order of the imports. -/
structure ReadFile.Yields (index : FileIndex) (modules : List String) (file : ReadFile)
    (edges : List Edge) : Prop where
  imported : ∀ edge ∈ edges, ∃ found ∈ file.outline.imports,
    edge ∈ file.edgesOf index modules found
  inOrder : edges.Pairwise fun first second =>
    file.outline.imports.findIdx (fun found =>
        (file.edgesOf index modules found).contains first) ≤
      file.outline.imports.findIdx (fun found =>
        (file.edgesOf index modules found).contains second)

namespace Graph

variable {graph : Graph}

theorem mem_edgesFrom_iff {path : String} {edge : Edge} :
    edge ∈ graph.edgesFrom path ↔ edge ∈ graph.edges ∧ edge.source = path := by
  simp [edgesFrom]

/-- Nothing is violated when dependencies are known and have an edge, and edges begin at
modules. -/
theorem violations_eq_nil
    (dependencies : ∀ path module, graph.module? path = some module → module.InStep graph path)
    (sources : ∀ edge ∈ graph.edges, graph.contains edge.source = true) :
    graph.violations = [] := by
  rw [violations, List.append_eq_nil_iff, List.flatMap_eq_nil_iff, List.filterMap_eq_nil_iff]
  constructor
  · intro module member
    obtain ⟨path, found⟩ := Keyed.mem_values_iff.mp member
    have inStep := dependencies path module found
    rw [List.filterMap_eq_nil_iff]
    intro target depends
    obtain ⟨edge, fromPath, leads⟩ := inStep.internalEdge target depends
    have hasEdge : (graph.edgesFrom module.path).any (·.target == target) = true := by
      rw [inStep.ownPath]
      exact List.any_eq_true.mpr ⟨edge, fromPath, by simpa using leads⟩
    simp [inStep.internalKnown target depends, hasEdge]
  · intro edge member
    rw [if_pos (sources edge member)]

section OfFiles

variable {project : String} {now : Instant} {index : FileIndex} {files : List ReadFile}

theorem inStep_ofFiles (distinct : (files.map (·.path)).Nodup) {path : String} {module : Module}
    (found : (ofFiles project now index files).module? path = some module) :
    module.InStep (ofFiles project now index files) path := by
  obtain ⟨file, member, rfl, rfl⟩ := exists_file_of_module? found
  have edge {target : String}
      (depends : target ∈ (moduleOf index files file).internalDeps ∨
        target ∈ (moduleOf index files file).externalDeps) :
      ∃ edge ∈ (ofFiles project now index files).edgesFrom file.path, edge.target = target := by
    rw [edgesFrom_ofFiles_path distinct member]
    exact ReadFile.exists_edge_iff.mpr depends
  exact {
    ownPath := rfl
    internalOnce := ReadFile.nodup_internalDeps
    externalOnce := ReadFile.nodup_externalDeps
    notItself := ReadFile.path_not_mem_internalDeps
    internalKnown := fun target depends =>
      contains_ofFiles.mpr (ReadFile.mem_modules_of_mem_internalDeps depends)
    internalEdge := fun target depends => edge (.inl depends)
    externalEdge := fun package depends => edge (.inr depends) }

theorem isConsistent_ofFiles (ascending : (files.map (·.path)).Pairwise (· < ·)) :
    (ofFiles project now index files).IsConsistent := by
  have distinct := nodup_of_ascending ascending
  have sources : ∀ edge ∈ (ofFiles project now index files).edges,
      (ofFiles project now index files).contains edge.source = true := by
    intro edge member
    obtain ⟨file, fileMember, ofFile⟩ := mem_edges_ofFiles.mp member
    rw [contains_ofFiles, source_of_mem_edgesOf ofFile]
    exact List.mem_map_of_mem fileMember
  exact {
    noViolations := violations_eq_nil (fun _ _ => inStep_ofFiles distinct) sources
    modules := fun _ _ => inStep_ofFiles distinct
    edgesOnce := nodup_edges_ofFiles distinct
    sourcesAscending := sources_ofFiles_ascending ascending }

theorem yields_ofFiles (distinct : (files.map (·.path)).Nodup) {file : ReadFile}
    (member : file ∈ files) :
    file.Yields index (files.map (·.path))
      ((ofFiles project now index files).edgesFrom file.path) := by
  rw [edgesFrom_ofFiles_path distinct member, edgesOf]
  refine ⟨?_, ReadFile.edges_inImportOrder⟩
  intro edge edgeMember
  rw [ReadFile.edges_eq, List.mem_eraseDups] at edgeMember
  exact List.mem_flatMap.mp edgeMember

end OfFiles

end Graph

/-- Whatever is indexed, the modules and the edges of the graph are in step. -/
theorem index_yields_consistent_graph {reader : SyntaxReader} {options : IndexOptions}
    {root : String} {disk : Disk} {now : Instant} {report : IndexReport}
    (named : ∀ name ∈ disk.working, Path.IsName name)
    (success : index reader options root disk now = .ok report) :
    report.graph.IsConsistent ∧
      ∃ language files, options.languageAt disk root = .ok language ∧
        disk.sourceFiles root language options.settings.extraExcludes = .ok files ∧
        ∀ path, report.graph.contains path = true →
          ∃ file ∈ ReadFile.ofSources reader options.settings.maxFileBytes files, file.path = path ∧
            file.Yields (disk.fileIndex root language files)
              ((ReadFile.ofSources reader options.settings.maxFileBytes files).map (·.path))
              (report.graph.edgesFrom path) := by
  obtain ⟨language, files, known, walked, rfl⟩ := index_eq_ok_iff.mp success
  have ascending := readPaths_ascending named walked reader options.settings.maxFileBytes
  rw [graph_ofFiles]
  refine ⟨Graph.isConsistent_ofFiles ascending, language, files, known, walked, ?_⟩
  intro path contained
  obtain ⟨file, member, rfl⟩ := List.mem_map.mp (Graph.contains_ofFiles.mp contained)
  exact ⟨file, member, rfl, Graph.yields_ofFiles (nodup_of_ascending ascending) member⟩

/-- Two modules that import each other, one of them twice. -/
def repeatedImportDisk : Disk :=
  ⟨.ofList [("a.py", .file "import b\nimport numpy\nimport b\n".toUTF8 default),
    ("b.py", .file "import a\n".toUTF8 default)], []⟩

theorem index_repeated_import :
    ∃ report, index .ofLexemes ⟨"repeated", some .python, ⟨[], 1000⟩⟩ "/" repeatedImportDisk
        default = .ok report ∧
      report.graph.edges = [⟨"a.py", "b.py", .importStatement, []⟩,
        ⟨"a.py", "numpy", .importStatement, []⟩, ⟨"b.py", "a.py", .importStatement, []⟩] ∧
      report.graph.IsConsistent := by
  have evaluated : (index .ofLexemes ⟨"repeated", some .python, ⟨[], 1000⟩⟩ "/"
      repeatedImportDisk default).toOption.map (·.graph.edges) =
      some [⟨"a.py", "b.py", .importStatement, []⟩,
        ⟨"a.py", "numpy", .importStatement, []⟩, ⟨"b.py", "a.py", .importStatement, []⟩] := by
    decide +kernel
  obtain ⟨report, success, edges⟩ := map_toOption_eq_some_iff.mp evaluated
  have named : ∀ name ∈ repeatedImportDisk.working, Path.IsName name := by decide
  exact ⟨report, success, edges, (index_yields_consistent_graph named success).1⟩

end CodeAtlas
