import CodeAtlas.Proofs.Indexing.Assembly
import CodeAtlas.Proofs.Walk

/-!
# Reports of indexing

Indexing succeeds when the language of the project is known and its root is a directory.  The
graph of the report is that of the source files that can be read, and their imports are resolved
against all source files.
-/

namespace CodeAtlas

namespace ReadFile

variable {reader : SyntaxReader} {limit : Nat}

theorem ofSource?_eq_some_iff {file : SourceFile} {read : ReadFile} :
    ofSource? reader limit file = some read ↔
      read.path = file.path ∧ read.language = file.language ∧ ∃ text, file.text limit = .ok text ∧
        read.outline = .ofSource reader file.language file.path text := by
  obtain ⟨path, language, outline⟩ := read
  rw [ofSource?]
  cases result : file.text limit with
  | error fault => simp
  | ok text => simp [eq_comm]

/-- The source files that can be read. -/
def ofSources (reader : SyntaxReader) (limit : Nat) (files : List SourceFile) : List ReadFile :=
  files.filterMap (ofSource? reader limit)

theorem mem_ofSources_iff {files : List SourceFile} {read : ReadFile} :
    read ∈ ofSources reader limit files ↔ ∃ file ∈ files, ofSource? reader limit file = some read :=
  List.mem_filterMap

theorem ofSources_ascending {files : List SourceFile}
    (ascending : (files.map (·.path)).Pairwise (· < ·)) :
    ((ofSources reader limit files).map (·.path)).Pairwise (· < ·) := by
  refine List.pairwise_map.mpr ((List.pairwise_map.mp ascending).filterMap _ ?_)
  intro first second below firstRead isFirst secondRead isSecond
  rw [(ofSource?_eq_some_iff.mp isFirst).1, (ofSource?_eq_some_iff.mp isSecond).1]
  exact below

end ReadFile

/-- The files that can be read stand in strictly ascending order of their paths. -/
theorem readPaths_ascending {disk : Disk} {root : String} {language : Language}
    {excludes : List String} {files : List SourceFile}
    (named : ∀ name ∈ disk.working, Path.IsName name)
    (walked : disk.sourceFiles root language excludes = .ok files) (reader : SyntaxReader)
    (limit : Nat) :
    ((ReadFile.ofSources reader limit files).map (·.path)).Pairwise (· < ·) :=
  ReadFile.ofSources_ascending (Disk.sourceFiles_ascending named walked)

/-- The index of source files that imports are resolved in.  Only projects of Go have a module
path. -/
def Disk.fileIndex (disk : Disk) (root : String) (language : Language)
    (files : List SourceFile) : FileIndex :=
  .ofPaths (files.map (·.path)) (if language = .go then disk.goModule? root else none)

section Index

variable {reader : SyntaxReader} {options : IndexOptions} {root : String} {disk : Disk}
  {now : Instant} {report : IndexReport}

theorem index_eq_ok_iff :
    index reader options root disk now = .ok report ↔
      ∃ language files, options.languageAt disk root = .ok language ∧
        disk.sourceFiles root language options.settings.extraExcludes = .ok files ∧
        report = .ofFiles reader options (if language = .go then disk.goModule? root else none)
          files now := by
  rw [index]
  simp only [bind_eq_ok_iff]
  constructor
  · intro success
    obtain ⟨language, known, files, walked, result⟩ := success
    cases result
    exact ⟨language, files, known, walked, rfl⟩
  · intro described
    obtain ⟨language, files, known, walked, rfl⟩ := described
    exact ⟨language, known, files, walked, rfl⟩

theorem graph_ofFiles {language : Language} {files : List SourceFile} :
    (IndexReport.ofFiles reader options (if language = .go then disk.goModule? root else none)
      files now).graph =
      .ofFiles options.project now (disk.fileIndex root language files)
        (ReadFile.ofSources reader options.settings.maxFileBytes files) :=
  rfl

end Index

end CodeAtlas
