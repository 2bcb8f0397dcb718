import CodeAtlas.Walk
import CodeAtlas.Proofs.Path
import CodeAtlas.Proofs.Results

/-!
# Walked files

Following a path from a directory with a name leads to a place whose segments are names, so the
locations below it begin alike and what follows is the path of a file.  Source files therefore
stand in strictly ascending order of their paths, as the locations do on the disk.
-/

namespace CodeAtlas

theorem SourceFile.eq_iff {first second : SourceFile} :
    (first.path = second.path ∧ first.language = second.language ∧
      first.content.data = second.content.data) ↔ first = second := by
  obtain ⟨firstPath, firstLanguage, ⟨firstData⟩⟩ := first
  obtain ⟨secondPath, secondLanguage, ⟨secondData⟩⟩ := second
  simp

instance : DecidableEq SourceFile := fun _ _ => decidable_of_iff _ SourceFile.eq_iff

namespace Disk

variable {disk : Disk} {reached : List String}

theorem follow_names {segment : String} {next : List String}
    (success : disk.follow reached segment = .ok next) (plain : '/' ∉ segment.toList)
    (named : ∀ name ∈ reached, Path.IsName name) : ∀ name ∈ next, Path.IsName name := by
  unfold follow at success
  cases entry : disk.entryAt? reached with
  | none => rw [entry] at success; cases success
  | some found =>
      rw [entry] at success
      cases found with
      | file content modified => cases success
      | directory =>
          dsimp only at success
          split at success
          next => cases success; exact named
          next notHere =>
            split at success
            next =>
              cases reached with
              | nil => cases success
              | cons _ outer =>
                  cases success
                  exact fun name member => named name (List.mem_cons_of_mem _ member)
            next =>
              cases success
              exact List.forall_mem_cons.mpr ⟨⟨mt .inl notHere, plain⟩, named⟩

theorem foldlM_follow_names {segments next : List String}
    (success : segments.foldlM disk.follow reached = .ok next)
    (plain : ∀ segment ∈ segments, '/' ∉ segment.toList)
    (named : ∀ name ∈ reached, Path.IsName name) : ∀ name ∈ next, Path.IsName name := by
  induction segments generalizing reached with
  | nil =>
      cases success
      exact named
  | cons segment rest induction =>
      obtain ⟨plainFirst, plainRest⟩ := List.forall_mem_cons.mp plain
      rw [List.foldlM_cons] at success
      obtain ⟨middle, first, later⟩ := bind_eq_ok_iff.mp success
      exact induction later plainRest (follow_names first plainFirst named)

/-- A path leads to a place whose segments are names. -/
theorem locate_names {path : String} (success : disk.locate path = .ok reached)
    (named : ∀ name ∈ disk.working, Path.IsName name) : ∀ name ∈ reached, Path.IsName name := by
  unfold locate at success
  split at success
  next => cases success
  next =>
    refine foldlM_follow_names success (fun segment => Path.not_mem_of_mem_segments) ?_
    unfold startOf
    split
    · simp
    · simpa using named

/-- What the locations below a directory begin with. -/
def beginning (reached : List String) : String :=
  if reached.isEmpty then "" else location reached ++ "/"

theorem segments_location (some : reached ≠ []) (named : ∀ name ∈ reached, Path.IsName name) :
    Path.segments (location reached) = reached.reverse :=
  Path.segments_ofSegments (by simpa using some)
    fun name member => (named name (List.mem_reverse.mp member)).2

theorem location_eq_empty_iff (named : ∀ name ∈ reached, Path.IsName name) :
    location reached = "" ↔ reached = [] := by
  constructor
  · intro noLocation
    by_contra some
    have segments := segments_location some named
    rw [noLocation] at segments
    have member : "" ∈ reached.reverse := by
      rw [← segments]
      exact List.mem_singleton.mpr rfl
    exact (named "" (List.mem_reverse.mp member)).1 rfl
  · intro top
    subst top
    rfl

theorem isBelow_location_iff (named : ∀ name ∈ reached, Path.IsName name) {place : String} :
    isBelow (location reached) place = true ↔ ∃ rest, place = beginning reached ++ rest := by
  rw [isBelow, Bool.or_eq_true, decide_eq_true_eq, location_eq_empty_iff named, String.isPrefixOf,
    String.startsWith_string_iff, beginning]
  by_cases top : reached = []
  · simp [top]
  · rw [if_neg (by simpa using top)]
    constructor
    · intro cases
      rcases cases with atTop | ⟨rest, split⟩
      · exact absurd atTop top
      · exact ⟨String.ofList rest, String.toList_injective (by simp [← split])⟩
    · intro below
      obtain ⟨rest, rfl⟩ := below
      exact .inr ⟨rest.toList, by simp⟩

theorem drop_segments_below (named : ∀ name ∈ reached, Path.IsName name) (rest : String) :
    (Path.segments (beginning reached ++ rest)).drop reached.length = Path.segments rest := by
  rw [beginning]
  by_cases top : reached = []
  · simp [top]
  · rw [if_neg (by simpa using top), Path.segments_append, segments_location top named,
      List.drop_left' (by simp)]

/-- The file that an entry is, if it lies below a directory. -/
def found? (reached : List String) (entry : String × DiskEntry) : Option Found :=
  match entry.2 with
  | .file content modified =>
      if isBelow (location reached) entry.1 then
        some ⟨(Path.segments entry.1).drop reached.length, content, modified⟩
      else none
  | .directory => none

theorem filesBelow_eq {directory : String} (located : disk.locate directory = .ok reached) :
    disk.filesBelow directory = disk.entries.entries.filterMap (found? reached) := by
  rw [filesBelow, located]
  rfl

/-- The path of a file below a directory is what its location goes on with. -/
theorem location_of_found? (named : ∀ name ∈ reached, Path.IsName name)
    {entry : String × DiskEntry} {found : Found} (isFound : found? reached entry = some found) :
    entry.1 = beginning reached ++ Path.ofSegments found.segments := by
  unfold found? at isFound
  cases entry : entry.2 with
  | directory => rw [entry] at isFound; cases isFound
  | file content modified =>
      rw [entry] at isFound
      dsimp only at isFound
      split at isFound
      next below =>
        cases isFound
        obtain ⟨rest, place⟩ := (isBelow_location_iff named).mp below
        rw [place, drop_segments_below named, Path.ofSegments_segments]
      next => cases isFound

theorem filesBelow_ascending (named : ∀ name ∈ disk.working, Path.IsName name)
    (directory : String) :
    (disk.filesBelow directory).Pairwise fun first second =>
      Path.ofSegments first.segments < Path.ofSegments second.segments := by
  cases located : disk.locate directory with
  | error fault =>
      rw [filesBelow, located]
      exact .nil
  | ok reached =>
      have names := locate_names located named
      rw [filesBelow_eq located]
      refine disk.entries.ascending.filterMap _ ?_
      intro first second below firstFound isFirst secondFound isSecond
      rw [location_of_found? names isFirst, location_of_found? names isSecond] at below
      exact Path.append_lt_append_iff.mp below

variable {root : String} {language : Language} {excludes : List String} {files : List SourceFile}

theorem sourceFiles_eq_ok_iff :
    disk.sourceFiles root language excludes = .ok files ↔
      disk.isDirectory root = true ∧
        files = (disk.filesBelow root).filterMap (sourceFile? language excludes) := by
  rw [sourceFiles]
  split
  next isDirectory => simp [isDirectory, eq_comm]
  next noDirectory => simp [noDirectory]

theorem sourceFile?_eq_some_iff {found : Found} {file : SourceFile} :
    sourceFile? language excludes found = some file ↔
      file.path = Path.ofSegments found.segments ∧
        Language.ofPath? file.path = some file.language ∧
        language.covers file.language = true ∧ isSkipped excludes found.segments = false ∧
        file.content = found.content := by
  obtain ⟨path, own, content⟩ := file
  simp only [sourceFile?, Option.bind_eq_bind, Option.bind_eq_some_iff, Option.ite_none_right_eq_some,
    Option.some.injEq, SourceFile.mk.injEq, Bool.and_eq_true, Bool.not_eq_true']
  constructor
  · intro success
    obtain ⟨other, isOwn, ⟨covers, notSkipped⟩, rfl, rfl, rfl⟩ := success
    exact ⟨rfl, isOwn, covers, notSkipped, rfl⟩
  · intro described
    obtain ⟨rfl, isOwn, covers, notSkipped, rfl⟩ := described
    exact ⟨own, isOwn, ⟨covers, notSkipped⟩, rfl, rfl, rfl⟩

/-- Source files stand in strictly ascending order of their paths. -/
theorem sourceFiles_ascending (named : ∀ name ∈ disk.working, Path.IsName name)
    (success : disk.sourceFiles root language excludes = .ok files) :
    (files.map (·.path)).Pairwise (· < ·) := by
  obtain ⟨_, rfl⟩ := sourceFiles_eq_ok_iff.mp success
  refine List.pairwise_map.mpr ((filesBelow_ascending named root).filterMap _ ?_)
  intro first second below firstFile isFirst secondFile isSecond
  rw [(sourceFile?_eq_some_iff.mp isFirst).1, (sourceFile?_eq_some_iff.mp isSecond).1]
  exact below

/-- A source file is in the language that its extension says, and the language of the project
covers it. -/
theorem language_of_mem_sourceFiles (success : disk.sourceFiles root language excludes = .ok files)
    {file : SourceFile} (member : file ∈ files) :
    Language.ofPath? file.path = some file.language ∧ language.covers file.language = true := by
  obtain ⟨_, rfl⟩ := sourceFiles_eq_ok_iff.mp success
  obtain ⟨found, _, isFile⟩ := List.mem_filterMap.mp member
  obtain ⟨_, own, covers, _⟩ := sourceFile?_eq_some_iff.mp isFile
  exact ⟨own, covers⟩

end Disk

end CodeAtlas
