import CodeAtlas.Proofs.Disk.Replace
import CodeAtlas.Proofs.Indexing.Report

/-!
# Files outside of a directory

Replacing documents of a directory leaves all files outside of it as they are.  What is read of a
project from outside of its data directory is therefore the same before and after its documents
are replaced: its manifests, its source files, and so whatever indexing finds.
-/

namespace CodeAtlas

/-- Two maps give the same list if they give the same for each key. -/
theorem Keyed.filterMap_congr {α β : Type} {view : String × α → Option β} {first second : Keyed α}
    (same : ∀ key, (first.get? key).bind (fun value => view (key, value)) =
      (second.get? key).bind fun value => view (key, value)) :
    first.entries.filterMap view = second.entries.filterMap view := by
  -- The values seen, under their keys, make a map of their own.
  let seen (map : Keyed α) : Keyed β :=
    ⟨map.entries.filterMap fun entry => (view entry).map (entry.1, ·), by
      refine map.ascending.filterMap _ fun one other below shown isShown later isLater => ?_
      obtain ⟨_, -, rfl⟩ := Option.map_eq_some_iff.mp isShown
      obtain ⟨_, -, rfl⟩ := Option.map_eq_some_iff.mp isLater
      exact below⟩
  have get?_seen (map : Keyed α) (key : String) :
      (seen map).get? key = (map.get? key).bind fun value => view (key, value) := by
    refine Option.ext fun shown => ?_
    rw [Keyed.get?_eq_some_iff, List.mem_filterMap, Option.bind_eq_some_iff]
    constructor
    · rintro ⟨⟨other, value⟩, member, isShown⟩
      obtain ⟨_, isView, pair⟩ := Option.map_eq_some_iff.mp isShown
      cases pair
      exact ⟨value, Keyed.get?_eq_some_iff.mpr member, isView⟩
    · rintro ⟨value, found, isView⟩
      exact ⟨(key, value), Keyed.get?_eq_some_iff.mp found, by rw [isView]; rfl⟩
  have values (map : Keyed α) : map.entries.filterMap view = (seen map).entries.map (·.2) := by
    rw [List.map_filterMap]
    refine List.filterMap_congr fun entry _ => ?_
    rw [Option.map_map]
    exact (congrFun Option.map_id _).symm
  have maps : seen first = seen second :=
    Keyed.eq_of_get?_eq fun key => by rw [get?_seen, get?_seen, same]
  rw [values, values, maps]

namespace Disk

variable {disk before between after made : Disk} {reached base : List String}
  {place name other root : String} {content : ByteArray} {modified now : Instant}

/-- The file that stands at a location. -/
def fileAt? (disk : Disk) (place : String) : Option (ByteArray × Instant) :=
  match disk.entries.get? place with
  | some (.file content modified) => some (content, modified)
  | _ => none

theorem fileAt?_eq_some_iff : disk.fileAt? place = some (content, modified) ↔
    disk.entries.get? place = some (.file content modified) := by
  rw [fileAt?]
  split
  next found => simp [found]
  next noFile =>
    simp only [reduceCtorEq, false_iff]
    exact noFile content modified

/-- All directories stay, and all files that are not below a place. -/
structure AgreesOutside (before after : Disk) (reached : List String) : Prop where
  keeps : before.KeepsDirectories after
  files : ∀ place, isBelow (location reached) place = false →
    after.fileAt? place = before.fileAt? place

namespace AgreesOutside

theorem refl (disk : Disk) (reached : List String) : disk.AgreesOutside disk reached :=
  ⟨⟨rfl, id⟩, fun _ _ => rfl⟩

theorem trans (first : before.AgreesOutside between reached)
    (second : between.AgreesOutside after reached) : before.AgreesOutside after reached :=
  ⟨first.keeps.trans second.keeps, fun place outside =>
    (second.files place outside).trans (first.files place outside)⟩

end AgreesOutside

/-- Further directories are no files. -/
theorem Extends.fileAt?_eq (grown : before.Extends after) (place : String) :
    after.fileAt? place = before.fileAt? place := by
  refine Option.ext fun ⟨content, modified⟩ => ?_
  rw [fileAt?_eq_some_iff, fileAt?_eq_some_iff]
  constructor
  · intro found
    obtain kept | directory := grown.added found
    · exact kept
    · cases directory
  · exact grown.kept

theorem Extends.agreesOutside (grown : before.Extends after) (reached : List String) :
    before.AgreesOutside after reached :=
  ⟨grown.keepsDirectories, fun place _ => grown.fileAt?_eq place⟩

/-- The location of an entry of a directory is below it. -/
theorem isBelow_location_cons (name : String) (reached : List String) :
    isBelow (location reached) (location (name :: reached)) = true := by
  rw [isBelow, location_cons]
  split
  next top => simp [top, location, Path.ofSegments]
  next =>
    rw [Bool.or_eq_true, String.isPrefixOf, String.startsWith_string_iff]
    exact .inr ⟨name.toList, by simp⟩

/-- Replacing a document changes no file but it and the one beside it. -/
theorem fileAt?_replaced_of_ne (notDocument : place ≠ location (name :: reached))
    (notBeside : place ≠ location (temporary name :: reached)) :
    (disk.replaced reached name content now).fileAt? place = disk.fileAt? place := by
  rw [fileAt?, fileAt?, get?_replaced, if_neg notDocument, if_neg notBeside]

/-! ## Entries beside a directory -/

theorem location_cons_ne_empty (proper : Path.IsEntryName name) (base : List String) :
    location (name :: base) ≠ "" := by
  rw [location_cons]
  split
  · exact proper.1.1
  · simp

/-- An entry of a directory does not lie below another one. -/
theorem isBelow_location_sibling (proper : Path.IsEntryName name)
    (otherProper : Path.IsEntryName other) (base : List String) :
    isBelow (location (other :: base)) (location (name :: base)) = false := by
  rw [isBelow, Bool.or_eq_false_iff, decide_eq_false_iff_not]
  refine ⟨location_cons_ne_empty otherProper base, ?_⟩
  rw [← Bool.not_eq_true, String.isPrefixOf, String.startsWith_string_iff]
  rintro ⟨rest, split⟩
  have slash : '/' ∈ name.toList := by
    rw [location_cons, location_cons] at split
    split at split
    · rw [← split]
      simp
    · simp only [String.toList_append, List.append_assoc, List.append_cancel_left_eq] at split
      rw [← split]
      simp
  exact proper.1.2 slash

/-- A location below an entry of a directory goes on with the name of that entry. -/
theorem exists_append_of_isBelow (proper : Path.IsEntryName name)
    (below : isBelow (location (name :: base)) place = true) :
    ∃ rest, place = beginning base ++ (name ++ "/" ++ rest) := by
  rw [isBelow, Bool.or_eq_true, decide_eq_true_eq, String.isPrefixOf,
    String.startsWith_string_iff] at below
  obtain empty | ⟨rest, split⟩ := below
  · exact absurd empty (location_cons_ne_empty proper base)
  · refine ⟨String.ofList rest, String.toList_injective ?_⟩
    rw [← split, location_cons, beginning]
    by_cases top : base = []
    · simp [top]
    · simp [top]

namespace AgreesOutside

variable (agrees : before.AgreesOutside after (other :: base))
  (located : before.locate root = .ok base)
  (isDirectory : before.entryAt? base = some .directory)

include agrees located isDirectory

theorem isDirectory_root : before.isDirectory root = true ∧ after.isDirectory root = true :=
  ⟨isDirectory_iff.mpr ⟨base, located, isDirectory⟩,
    isDirectory_iff.mpr ⟨base, agrees.keeps.locate located, agrees.keeps.directory isDirectory⟩⟩

/-- The other files of the directory are the same. -/
theorem entry_eq_file_iff (proper : Path.IsEntryName name) (otherProper : Path.IsEntryName other) :
    after.entry (Path.resolve root name) = .ok (.file content modified) ↔
      before.entry (Path.resolve root name) = .ok (.file content modified) := by
  have leads {disk : Disk} (located : disk.locate root = .ok base)
      (isDirectory : disk.entryAt? base = some .directory) :
      disk.locate (Path.resolve root name) = .ok (name :: base) := by
    rw [locate_resolve located (Path.startsWith_entryName proper), Path.segments_entryName proper,
      List.foldlM_cons, (follow_entryName proper).mpr ⟨isDirectory, rfl⟩]
    rfl
  have same := agrees.files (location (name :: base))
    (isBelow_location_sibling proper otherProper base)
  have isFile {disk : Disk} (leads : disk.locate (Path.resolve root name) = .ok (name :: base)) :
      disk.entry (Path.resolve root name) = .ok (.file content modified) ↔
        disk.fileAt? (location (name :: base)) = some (content, modified) := by
    rw [entry_eq_ok_iff, leads, fileAt?_eq_some_iff]
    simp [entryAt?_cons]
  rw [isFile (leads (agrees.keeps.locate located) (agrees.keeps.directory isDirectory)),
    isFile (leads located isDirectory), same]

theorem isFile_eq (proper : Path.IsEntryName name) (otherProper : Path.IsEntryName other) :
    after.isFile (Path.resolve root name) = before.isFile (Path.resolve root name) := by
  have isFile_iff (disk : Disk) : disk.isFile (Path.resolve root name) = true ↔
      ∃ content modified, disk.entry (Path.resolve root name) = .ok (.file content modified) := by
    rw [isFile]
    split
    next found => simp [found]
    next noFile =>
      simp only [Bool.false_eq_true, false_iff, not_exists]
      exact noFile
  rw [Bool.eq_iff_iff, isFile_iff, isFile_iff]
  simp only [agrees.entry_eq_file_iff located isDirectory proper otherProper]

theorem goModule?_eq (otherProper : Path.IsEntryName other) :
    after.goModule? root = before.goModule? root := by
  have readText (text : String) : after.readText (Path.resolve root "go.mod") = .ok text ↔
      before.readText (Path.resolve root "go.mod") = .ok text := by
    have read_iff (disk : Disk) (content : ByteArray) :
        disk.read (Path.resolve root "go.mod") = .ok content ↔
          ∃ modified, disk.entry (Path.resolve root "go.mod") = .ok (.file content modified) := by
      simp only [read_eq_ok_iff_entryAt?, entry_eq_ok_iff]
      exact exists_comm
    rw [readText_eq_ok_iff_read, readText_eq_ok_iff_read, read_iff, read_iff]
    simp only [agrees.entry_eq_file_iff located isDirectory
      (by decide : Path.IsEntryName "go.mod") otherProper]
  rw [goModule?, goModule?]
  cases isBefore : before.readText (Path.resolve root "go.mod") with
  | ok text => rw [(readText text).mpr isBefore]
  | error fault =>
      cases isAfter : after.readText (Path.resolve root "go.mod") with
      | ok text =>
          rw [(readText text).mp isAfter] at isBefore
          cases isBefore
      | error _ => rfl

theorem language?_eq (otherProper : Path.IsEntryName other) :
    after.language? root = before.language? root := by
  have manifest : ∀ marker ∈ manifests, Path.IsEntryName marker.1 := by decide
  rw [language?, language?, languages, languages]
  congr 3
  refine List.filter_congr fun marker member => ?_
  exact agrees.isFile_eq located isDirectory (manifest marker member) otherProper

end AgreesOutside

/-! ## Source files -/

/-- What lies below a directory that is skipped is no source file. -/
theorem sourceFile?_eq_none_of_skipped {language : Language} {excludes : List String}
    {found : Found} (skipped : isSkipped excludes found.segments = true) :
    sourceFile? language excludes found = none := by
  refine Option.eq_none_iff_forall_ne_some.mpr fun file isFile => ?_
  rw [(sourceFile?_eq_some_iff.mp isFile).2.2.2.1] at skipped
  cases skipped

theorem isSkipped_cons {excludes segments : List String} (some : segments ≠ [])
    (member : name ∈ skippedDirectories) : isSkipped excludes (name :: segments) = true := by
  rw [isSkipped, List.dropLast_cons_of_ne_nil some, List.any_cons,
    List.contains_iff_mem.mpr member]
  rfl

/-- Replacing documents of a directory that is skipped leaves the source files as they are. -/
theorem AgreesOutside.sourceFiles_eq (agrees : before.AgreesOutside after (name :: base))
    (located : before.locate root = .ok base)
    (isDirectory : before.entryAt? base = some .directory) (proper : Path.IsEntryName name)
    (member : name ∈ skippedDirectories) (named : ∀ name ∈ before.working, Path.IsName name)
    (language : Language) (excludes : List String) :
    after.sourceFiles root language excludes = before.sourceFiles root language excludes := by
  have names := locate_names located named
  let view (entry : String × DiskEntry) : Option SourceFile :=
    (found? base entry).bind (sourceFile? language excludes)
  -- A location shows a file or nothing; what is below the directory shows nothing.
  have shows (disk : Disk) (key : String) :
      (disk.entries.get? key).bind (fun entry => view (key, entry)) =
        if isBelow (location (name :: base)) key then none
        else (disk.fileAt? key).bind fun file => view (key, .file file.1 file.2) := by
    split
    next below =>
      refine Option.bind_eq_none_iff.mpr fun entry _ => ?_
      refine Option.bind_eq_none_iff.mpr fun found isFound => sourceFile?_eq_none_of_skipped ?_
      obtain ⟨rest, rfl⟩ := exists_append_of_isBelow proper below
      have segments : found.segments = name :: Path.segments rest := by
        rw [found?] at isFound
        split at isFound
        next =>
          split at isFound
          next =>
            cases isFound
            rw [drop_segments_below names, Path.segments_append, Path.segments_entryName proper]
            rfl
          next => cases isFound
        next => cases isFound
      rw [segments]
      exact isSkipped_cons (Path.segments_ne_nil rest) member
    next =>
      rw [fileAt?]
      cases disk.entries.get? key with
      | none => rfl
      | some entry => cases entry <;> rfl
  have files : (after.filesBelow root).filterMap (sourceFile? language excludes) =
      (before.filesBelow root).filterMap (sourceFile? language excludes) := by
    rw [filesBelow_eq located, filesBelow_eq (agrees.keeps.locate located),
      List.filterMap_filterMap, List.filterMap_filterMap]
    refine Keyed.filterMap_congr fun key => ?_
    rw [shows, shows]
    split
    · rfl
    · next outside => rw [agrees.files key (by simpa using outside)]
  obtain ⟨onBefore, onAfter⟩ := agrees.isDirectory_root located isDirectory
  rw [sourceFiles, sourceFiles, onBefore, onAfter, files]

end Disk

/-- Indexing finds the same after documents of a directory that is skipped have been replaced. -/
theorem Disk.AgreesOutside.exists_index {before after : Disk} {base : List String}
    {root name : String} (agrees : before.AgreesOutside after (name :: base))
    (located : before.locate root = .ok base)
    (isDirectory : before.entryAt? base = some .directory) (proper : Path.IsEntryName name)
    (member : name ∈ skippedDirectories) (named : ∀ name ∈ before.working, Path.IsName name)
    {reader : SyntaxReader} {options : IndexOptions} {first second : Instant} {report : IndexReport}
    (success : index reader options root before first = .ok report) :
    ∃ again, index reader options root after second = .ok again ∧
      again.graph.sameStructure report.graph = true := by
  obtain ⟨language, files, known, walked, rfl⟩ := index_eq_ok_iff.mp success
  rw [IndexOptions.languageAt, ← agrees.language?_eq located isDirectory proper] at known
  rw [← agrees.sourceFiles_eq located isDirectory proper member named] at walked
  rw [← agrees.goModule?_eq located isDirectory proper]
  refine ⟨_, index_eq_ok_iff.mpr ⟨language, files, known, walked, rfl⟩, ?_⟩
  simp only [IndexReport.ofFiles, Graph.sameStructure, Graph.modules_ofFiles,
    Graph.edges_ofFiles]
  simp [Graph.ofFiles, Graph.foldl_addFile, Graph.new]

end CodeAtlas
