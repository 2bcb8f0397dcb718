import CodeAtlas.Proofs.Indexing.Link
import CodeAtlas.Proofs.Keyed

/-!
# Assembled graphs

The graph of some files holds the module of each file under its path, and the edges of the files
one after another.  When the paths are distinct, the edges from a module are those of its file.
-/

namespace CodeAtlas.Graph

variable {project : String} {now : Instant} {index : FileIndex} {files : List ReadFile}

/-- The module of a file among some files. -/
def moduleOf (index : FileIndex) (files : List ReadFile) (file : ReadFile) : Module :=
  file.module (file.links index (files.map (·.path)))

/-- The edges of a file among some files. -/
def edgesOf (index : FileIndex) (files : List ReadFile) (file : ReadFile) : List Edge :=
  file.edges (file.links index (files.map (·.path)))

theorem foldl_addFile (modules : List String) (files : List ReadFile) (graph : Graph) :
    files.foldl (addFile index modules) graph =
      { graph with
        modules := (files.map fun file => (file.path, file.module (file.links index modules))).foldl
          (fun map entry => map.insert entry.1 entry.2) graph.modules
        edges := graph.edges ++ files.flatMap fun file => file.edges (file.links index modules) } := by
  induction files generalizing graph with
  | nil => simp
  | cons file rest induction =>
      rw [List.foldl_cons, induction]
      simp only [addFile, insertModule, List.map_cons, List.foldl_cons, List.flatMap_cons,
        List.append_assoc]
      rfl

theorem modules_ofFiles :
    (ofFiles project now index files).modules =
      .ofList (files.map fun file => (file.path, moduleOf index files file)) := by
  rw [ofFiles, foldl_addFile]
  rfl

theorem edges_ofFiles :
    (ofFiles project now index files).edges = files.flatMap (edgesOf index files) := by
  rw [ofFiles, foldl_addFile]
  rfl

theorem contains_ofFiles {path : String} :
    (ofFiles project now index files).contains path = true ↔ path ∈ files.map (·.path) := by
  rw [contains, Keyed.contains_iff_mem_keys, modules_ofFiles, Keyed.mem_keys_ofList, List.map_map]
  rfl

/-- Every module is that of a file with its path. -/
theorem exists_file_of_module? {path : String} {module : Module}
    (found : (ofFiles project now index files).module? path = some module) :
    ∃ file ∈ files, file.path = path ∧ moduleOf index files file = module := by
  rw [module?, modules_ofFiles] at found
  obtain ⟨file, member, entry⟩ := List.mem_map.mp
    (Keyed.mem_of_mem_ofList (Keyed.get?_eq_some_iff.mp found))
  exact ⟨file, member, congrArg Prod.fst entry, congrArg Prod.snd entry⟩

theorem module?_ofFiles (distinct : (files.map (·.path)).Nodup) {file : ReadFile}
    (member : file ∈ files) :
    (ofFiles project now index files).module? file.path = some (moduleOf index files file) := by
  rw [module?, modules_ofFiles]
  refine (Keyed.get?_ofList_eq_some_iff ?_).mpr (List.mem_map_of_mem member)
  rwa [List.map_map]

/-- Of the files with one path, the last one gives the module. -/
theorem module?_ofFiles_eq_map (path : String) :
    (ofFiles project now index files).module? path =
      (files.reverse.find? (·.path == path)).map (moduleOf index files) := by
  rw [module?, modules_ofFiles, Keyed.get?_ofList, ← List.map_reverse, Keyed.lookup_map]

theorem mem_edges_ofFiles {edge : Edge} :
    edge ∈ (ofFiles project now index files).edges ↔
      ∃ file ∈ files, edge ∈ edgesOf index files file := by
  rw [edges_ofFiles, List.mem_flatMap]

theorem source_of_mem_edgesOf {file : ReadFile} {edge : Edge}
    (member : edge ∈ edgesOf index files file) : edge.source = file.path :=
  ReadFile.source_of_mem_edges member

theorem edgesFrom_ofFiles (path : String) :
    (ofFiles project now index files).edgesFrom path =
      (files.filter (·.path == path)).flatMap (edgesOf index files) := by
  rw [edgesFrom, edges_ofFiles]
  -- The induction is on the files that contribute; those that are linked stay the same.
  have filtered : ∀ some : List ReadFile,
      (some.flatMap (edgesOf index files)).filter (·.source == path) =
        (some.filter (·.path == path)).flatMap (edgesOf index files) := by
    intro some
    induction some with
    | nil => rfl
    | cons file rest induction =>
        rw [List.flatMap_cons, List.filter_append, induction]
        by_cases same : file.path = path
        · have all : (edgesOf index files file).filter (·.source == path) =
              edgesOf index files file :=
            List.filter_eq_self.mpr fun edge member => by
              simpa [source_of_mem_edgesOf member] using same
          rw [all, List.filter_cons_of_pos (by simpa using same), List.flatMap_cons]
        · have none : (edgesOf index files file).filter (·.source == path) = [] :=
            List.filter_eq_nil_iff.mpr fun edge member => by
              simpa [source_of_mem_edgesOf member] using same
          rw [none, List.filter_cons_of_neg (by simpa using same), List.nil_append]
  exact filtered files

theorem filter_path_eq_singleton (distinct : (files.map (·.path)).Nodup) {file : ReadFile}
    (member : file ∈ files) : files.filter (·.path == file.path) = [file] := by
  obtain ⟨before, after, rfl⟩ := List.append_of_mem member
  have others {other : ReadFile} (elsewhere : other ∈ before ∨ other ∈ after) :
      other.path ≠ file.path := by
    intro same
    rw [List.map_append, List.map_cons, List.nodup_append, List.nodup_cons] at distinct
    rcases elsewhere with earlier | later
    · exact distinct.2.2 other.path (List.mem_map_of_mem earlier) file.path
        List.mem_cons_self same
    · exact distinct.2.1.1 (List.mem_map.mpr ⟨other, later, same⟩)
  have noneBefore : before.filter (·.path == file.path) = [] :=
    List.filter_eq_nil_iff.mpr fun other earlier => by simpa using others (.inl earlier)
  have noneAfter : after.filter (·.path == file.path) = [] :=
    List.filter_eq_nil_iff.mpr fun other later => by simpa using others (.inr later)
  rw [List.filter_append, List.filter_cons_of_pos (by simp), noneBefore, noneAfter,
    List.nil_append]

/-- The edges from a module are those of its file. -/
theorem edgesFrom_ofFiles_path (distinct : (files.map (·.path)).Nodup) {file : ReadFile}
    (member : file ∈ files) :
    (ofFiles project now index files).edgesFrom file.path = edgesOf index files file := by
  rw [edgesFrom_ofFiles, filter_path_eq_singleton distinct member, List.flatMap_singleton]

theorem nodup_edges_ofFiles (distinct : (files.map (·.path)).Nodup) :
    (ofFiles project now index files).edges.Nodup := by
  rw [edges_ofFiles, List.nodup_flatMap]
  refine ⟨fun file _ => ReadFile.nodup_edges, (List.pairwise_map.mp distinct).imp ?_⟩
  intro first second different edge inFirst inSecond
  exact different ((source_of_mem_edgesOf inFirst).symm.trans (source_of_mem_edgesOf inSecond))

theorem sources_ofFiles_ascending (ascending : (files.map (·.path)).Pairwise (· < ·)) :
    (ofFiles project now index files).edges.Pairwise fun first second =>
      first.source ≤ second.source := by
  rw [edges_ofFiles, List.pairwise_flatMap]
  constructor
  · intro file _
    refine List.pairwise_of_forall_mem_list ?_
    intro first inFirst second inSecond
    have same : first.source = second.source :=
      (source_of_mem_edgesOf inFirst).trans (source_of_mem_edgesOf inSecond).symm
    exact same ▸ String.le_refl _
  · refine (List.pairwise_map.mp ascending).imp ?_
    intro firstFile secondFile below first inFirst second inSecond
    rw [source_of_mem_edgesOf inFirst, source_of_mem_edgesOf inSecond]
    exact String.not_lt.mp (String.lt_asymm below)

end CodeAtlas.Graph
