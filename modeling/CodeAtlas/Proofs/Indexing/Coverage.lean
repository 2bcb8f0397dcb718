import CodeAtlas.Proofs.Disk.Tree
import CodeAtlas.Proofs.Indexing.Report

/-!
# Which files are indexed

The source files of a project are described by what its disk holds: the files in a language that
the project covers, outside of skipped directories.  Indexing accounts for each of them once, as
a module of the graph or as a failure whose reason is its size or its content.
-/

namespace CodeAtlas

/-- No extension belongs to two languages. -/
theorem Language.eq_of_mem_extensions {first second : Language} {extension : String}
    (inFirst : extension ∈ first.extensions) (inSecond : extension ∈ second.extensions) :
    first = second := by
  have apart : ∀ one ∈ all, ∀ other ∈ all, one ≠ other →
      ∀ shared ∈ one.extensions, shared ∉ other.extensions := by
    decide +kernel
  by_contra different
  exact apart first (mem_all first) second (mem_all second) different extension inFirst inSecond

theorem Language.ofPath?_eq_some_iff {path : String} {language : Language} :
    ofPath? path = some language ↔
      ∃ extension, Path.extension? path = some extension ∧ extension ∈ language.extensions := by
  rw [ofPath?, Option.bind_eq_bind, Option.bind_eq_some_iff]
  refine exists_congr fun extension => and_congr_right fun _ => ?_
  constructor
  · intro found
    simpa using List.find?_some found
  · intro member
    cases found : all.find? fun language => language.extensions.contains extension with
    | none =>
        have absent := List.find?_eq_none.mp found language (mem_all language)
        simp [member] at absent
    | some other =>
        have otherMember : extension ∈ other.extensions := by simpa using List.find?_some found
        rw [eq_of_mem_extensions otherMember member]

namespace Disk

/-- What a disk has to hold for a file to be a source file of a project: a regular file at its
path below the root, with an extension of a language that the project covers, and below no
directory that is skipped. -/
structure IsSource (disk : Disk) (root : String) (language : Language) (excludes : List String)
    (file : SourceFile) : Prop where
  proper : ∀ name ∈ Path.segments file.path, Path.IsEntryName name
  regular : disk.read (Path.resolve root file.path) = .ok file.content
  extension : ∃ extension, Path.extension? file.path = some extension ∧
    extension ∈ file.language.extensions
  covered : language.covers file.language = true
  notSkipped : ∀ directory ∈ (Path.segments file.path).dropLast,
    directory ∉ skippedDirectories ∧ directory ∉ excludes

variable {disk : Disk} {reached : List String} {root : String} {language : Language}
  {excludes : List String} {file : SourceFile}

theorem isSkipped_eq_false_iff {segments : List String} :
    isSkipped excludes segments = false ↔
      ∀ directory ∈ segments.dropLast, directory ∉ skippedDirectories ∧ directory ∉ excludes := by
  rw [isSkipped, List.any_eq_false]
  simp

theorem location_append {names : List String} (some : names ≠ []) :
    location (names.reverse ++ reached) = beginning reached ++ Path.ofSegments names := by
  rw [location, List.reverse_append, List.reverse_reverse, beginning]
  cases reached with
  | nil => simp
  | cons first rest =>
      rw [if_neg (by simp), location, Path.ofSegments,
        String.intercalate_append_of_ne_nil (by simp) some]
      rfl

/-- A file below a directory is an entry of the disk. -/
theorem mem_filesBelow_iff (named : ∀ name ∈ disk.working, Path.IsName name)
    (located : disk.locate root = .ok reached) {found : Found} :
    found ∈ disk.filesBelow root ↔
      ∃ path, found.segments = Path.segments path ∧
        disk.entries.get? (beginning reached ++ path) =
          some (.file found.content found.modified) := by
  have names := locate_names located named
  rw [filesBelow_eq located, List.mem_filterMap]
  constructor
  · intro member
    obtain ⟨⟨place, entry⟩, present, isFound⟩ := member
    have atPlace := location_of_found? names isFound
    cases entry with
    | directory => cases isFound
    | file content modified =>
        rw [found?] at isFound
        dsimp only at isFound
        split at isFound
        next below =>
          obtain ⟨rest, rfl⟩ := (isBelow_location_iff names).mp below
          cases isFound
          exact ⟨rest, drop_segments_below names rest, Keyed.get?_eq_some_iff.mpr present⟩
        next => cases isFound
  · intro described
    obtain ⟨path, segments, present⟩ := described
    refine ⟨_, Keyed.get?_eq_some_iff.mp present, ?_⟩
    have below := (isBelow_location_iff names).mpr ⟨path, rfl⟩
    rw [found?]
    dsimp only
    rw [if_pos below, drop_segments_below names, ← segments]

/-- In a tree the files below a directory have names that are no points. -/
theorem IsTree.proper_segments (tree : disk.IsTree) (located : disk.locate root = .ok reached)
    {path : String} {entry : DiskEntry}
    (present : disk.entries.get? (beginning reached ++ path) = some entry) :
    ∀ name ∈ Path.segments path, Path.IsEntryName name := by
  have names := locate_names located tree.working
  have all := tree.named _ (Keyed.mem_keys_iff.mpr ⟨entry, present⟩)
  intro name member
  refine all name ?_
  rw [← drop_segments_below names] at member
  exact List.mem_of_mem_drop member

/-- In a tree the source files of a project are exactly the files that its disk holds as such. -/
theorem IsTree.mem_sourceFiles_iff (tree : disk.IsTree) {files : List SourceFile}
    (success : disk.sourceFiles root language excludes = .ok files) :
    file ∈ files ↔ disk.IsSource root language excludes file := by
  obtain ⟨isDirectory, rfl⟩ := sourceFiles_eq_ok_iff.mp success
  obtain ⟨reached, located, atRoot⟩ := isDirectory_iff.mp isDirectory
  rw [List.mem_filterMap]
  have entryAt (names : List String) (some : names ≠ []) :
      disk.entryAt? (names.reverse ++ reached) =
        disk.entries.get? (beginning reached ++ Path.ofSegments names) := by
    rw [entryAt?, if_neg (by simp [some]), location_append some]
  constructor
  · intro member
    obtain ⟨found, below, isFile⟩ := member
    obtain ⟨samePath, own, covered, notSkipped, content⟩ := sourceFile?_eq_some_iff.mp isFile
    obtain ⟨path, segments, present⟩ := (mem_filesBelow_iff tree.working located).mp below
    rw [segments, Path.ofSegments_segments] at samePath
    subst samePath
    have proper := tree.proper_segments located present
    refine ⟨proper, ?_, Language.ofPath?_eq_some_iff.mp own, covered, ?_⟩
    · have read := tree.read_resolve_iff located (Path.segments_ne_nil file.path) proper
        file.content
      rw [Path.ofSegments_segments, entryAt _ (Path.segments_ne_nil _),
        Path.ofSegments_segments] at read
      exact read.mpr ⟨found.modified, content ▸ present⟩
    · rw [← segments]
      exact isSkipped_eq_false_iff.mp notSkipped
  · intro source
    have read := tree.read_resolve_iff located (Path.segments_ne_nil file.path) source.proper
      file.content
    rw [Path.ofSegments_segments, entryAt _ (Path.segments_ne_nil _),
      Path.ofSegments_segments] at read
    obtain ⟨modified, present⟩ := read.mp source.regular
    refine ⟨⟨Path.segments file.path, file.content, modified⟩,
      (mem_filesBelow_iff tree.working located).mpr ⟨file.path, rfl, present⟩,
      sourceFile?_eq_some_iff.mpr ⟨?_, Language.ofPath?_eq_some_iff.mpr source.extension,
        source.covered, isSkipped_eq_false_iff.mpr source.notSkipped, rfl⟩⟩
    exact (Path.ofSegments_segments file.path).symm

end Disk

/-! ## Modules and failures -/

namespace SourceFile

variable {limit : Nat} {file : SourceFile}

theorem text_eq_tooLarge_iff {size bound : Nat} :
    file.text limit = .error (.tooLarge size bound) ↔
      limit < file.size ∧ size = file.size ∧ bound = limit := by
  unfold text
  split
  next large => simp [large, eq_comm]
  next small => split <;> simp [small]

theorem text_eq_notText_iff :
    file.text limit = .error .notText ↔
      file.size ≤ limit ∧ ¬file.content.IsValidUTF8 := by
  unfold text
  split
  next large => simp [large]
  next small =>
    rw [String.fromUTF8?]
    by_cases valid : file.content.IsValidUTF8 <;> simp [valid, Nat.le_of_not_lt small]

theorem text_succeeds_iff :
    (∃ text, file.text limit = .ok text) ↔
      file.size ≤ limit ∧ file.content.IsValidUTF8 := by
  unfold text
  split
  next large => simp [large]
  next small =>
    rw [String.fromUTF8?]
    by_cases valid : file.content.IsValidUTF8 <;> simp [valid, Nat.le_of_not_lt small]

theorem failure?_eq_some_iff {failure : FileFailure} :
    file.failure? limit = some failure ↔
      failure.path = file.path ∧ file.text limit = .error failure.fault := by
  obtain ⟨path, fault⟩ := failure
  rw [failure?]
  cases file.text limit <;> simp [eq_comm]

end SourceFile

/-- A report that accounts for source files: each is a module or a failure and not both, a
failure names the reason, and nothing else is reported. -/
structure IndexReport.AccountsFor (report : IndexReport) (limit : Nat) (files : List SourceFile) :
    Prop where
  /-- Modules are the files that are neither too large nor no text. -/
  modules : ∀ path, report.graph.contains path = true ↔
    ∃ file ∈ files, file.path = path ∧ file.size ≤ limit ∧ file.content.IsValidUTF8
  tooLarge : ∀ path size bound, ⟨path, .tooLarge size bound⟩ ∈ report.failures ↔
    ∃ file ∈ files, file.path = path ∧ limit < file.size ∧ size = file.size ∧ bound = limit
  notText : ∀ path, ⟨path, .notText⟩ ∈ report.failures ↔
    ∃ file ∈ files, file.path = path ∧ file.size ≤ limit ∧ ¬file.content.IsValidUTF8
  failuresOnce : (report.failures.map (·.path)).Pairwise (· < ·)
  /-- Every file is accounted for in exactly one way. -/
  apart : ∀ file ∈ files,
    report.graph.contains file.path = true ↔ file.path ∉ report.failures.map (·.path)

namespace IndexReport

variable {reader : SyntaxReader} {options : IndexOptions} {goModule : Option String}
  {files : List SourceFile} {now : Instant}

theorem mem_failures_ofFiles {failure : FileFailure} :
    failure ∈ (ofFiles reader options goModule files now).failures ↔
      ∃ file ∈ files, file.path = failure.path ∧
        file.text options.settings.maxFileBytes = .error failure.fault := by
  change failure ∈ files.filterMap (·.failure? options.settings.maxFileBytes) ↔ _
  rw [List.mem_filterMap]
  exact exists_congr fun file => and_congr_right fun _ =>
    SourceFile.failure?_eq_some_iff.trans (and_congr_left' eq_comm)

theorem contains_ofFiles {path : String} :
    (ofFiles reader options goModule files now).graph.contains path = true ↔
      ∃ file ∈ files, file.path = path ∧
        ∃ text, file.text options.settings.maxFileBytes = .ok text := by
  change (Graph.ofFiles options.project now _
    (ReadFile.ofSources reader options.settings.maxFileBytes files)).contains path = true ↔ _
  rw [Graph.contains_ofFiles, List.mem_map]
  constructor
  · intro known
    obtain ⟨read, member, rfl⟩ := known
    obtain ⟨file, fileMember, isRead⟩ := ReadFile.mem_ofSources_iff.mp member
    obtain ⟨samePath, _, text, isText, _⟩ := ReadFile.ofSource?_eq_some_iff.mp isRead
    exact ⟨file, fileMember, samePath.symm, text, isText⟩
  · intro described
    obtain ⟨file, member, rfl, text, isText⟩ := described
    exact ⟨⟨file.path, file.language, .ofSource reader file.language file.path text⟩,
      ReadFile.mem_ofSources_iff.mpr ⟨file, member,
        ReadFile.ofSource?_eq_some_iff.mpr ⟨rfl, rfl, text, isText, rfl⟩⟩, rfl⟩

/-- The report of files in ascending order of their paths accounts for them. -/
theorem accountsFor_ofFiles (ascending : (files.map (·.path)).Pairwise (· < ·)) :
    (ofFiles reader options goModule files now).AccountsFor options.settings.maxFileBytes
      files := by
  have distinct {first second : SourceFile} (firstMember : first ∈ files)
      (secondMember : second ∈ files) (same : first.path = second.path) : first = second :=
    List.inj_on_of_nodup_map (nodup_of_ascending ascending) firstMember secondMember same
  refine { modules := ?_, tooLarge := ?_, notText := ?_, failuresOnce := ?_, apart := ?_ }
  · intro path
    simp only [contains_ofFiles, SourceFile.text_succeeds_iff]
  · intro path size bound
    simp only [mem_failures_ofFiles, SourceFile.text_eq_tooLarge_iff]
  · intro path
    simp only [mem_failures_ofFiles, SourceFile.text_eq_notText_iff]
  · change ((files.filterMap (·.failure? options.settings.maxFileBytes)).map _).Pairwise _
    refine List.pairwise_map.mpr ((List.pairwise_map.mp ascending).filterMap _ ?_)
    intro first second below firstFailure isFirst secondFailure isSecond
    rw [(SourceFile.failure?_eq_some_iff.mp isFirst).1,
      (SourceFile.failure?_eq_some_iff.mp isSecond).1]
    exact below
  · intro file member
    have failed : file.path ∈ (ofFiles reader options goModule files now).failures.map (·.path) ↔
        ∃ fault, file.text options.settings.maxFileBytes = .error fault := by
      simp only [List.mem_map, mem_failures_ofFiles]
      constructor
      · intro listed
        obtain ⟨failure, ⟨other, otherMember, same, failed⟩, samePath⟩ := listed
        exact ⟨failure.fault, distinct otherMember member (same.trans samePath) ▸ failed⟩
      · intro unread
        obtain ⟨fault, failed⟩ := unread
        exact ⟨⟨file.path, fault⟩, ⟨file, member, rfl, failed⟩, rfl⟩
    have read : (ofFiles reader options goModule files now).graph.contains file.path = true ↔
        ∃ text, file.text options.settings.maxFileBytes = .ok text := by
      rw [contains_ofFiles]
      constructor
      · intro known
        obtain ⟨other, otherMember, same, isText⟩ := known
        exact distinct otherMember member same ▸ isText
      · intro isText
        exact ⟨file, member, rfl, isText⟩
    rw [read, failed, exists_error_iff, not_not]

end IndexReport

/-- A project with a skipped file, a large one, one that is no text, and one that is read. -/
def mixedDisk : Disk :=
  ⟨.ofList [("build", .directory), ("build/made.py", .file "x = 1\n".toUTF8 default),
    ("large.py", .file "import a\nimport b\n".toUTF8 default),
    ("noise.py", .file ⟨#[255]⟩ default), ("src", .directory),
    ("src/a.py", .file "x = 1\n".toUTF8 default)], []⟩

end CodeAtlas
