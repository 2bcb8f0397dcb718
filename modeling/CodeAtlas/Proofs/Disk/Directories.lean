import CodeAtlas.Proofs.Disk.Tree

/-!
# Following and making directories

Where a path leads depends on its segments alone; a disk only decides whether it can be followed.
Making directories adds directories and changes nothing that is there, so whatever could be
followed before can be followed afterwards.
-/

namespace CodeAtlas.Disk

variable {disk before between after made changed : Disk} {reached next names : List String}
  {path place segment : String} {entry : DiskEntry}

/-! ## Where a path leads -/

/-- Where the segments of a path lead, whatever is on the disk. -/
def leadsTo? (disk : Disk) (path : String) : Option (List String) :=
  (Path.segments path).foldlM Path.followSegment? (disk.startOf path)

/-- A segment can be followed exactly from a directory, and leads where it leads on every disk. -/
theorem follow_eq_ok_iff : disk.follow reached segment = .ok next ↔
    disk.entryAt? reached = some .directory ∧ Path.followSegment? reached segment = some next := by
  rw [follow.eq_def, Path.followSegment?.eq_def]
  cases disk.entryAt? reached with
  | none => simp
  | some found =>
      cases found with
      | file content modified => simp
      | directory =>
          simp only [true_and]
          split
          next => simp
          next =>
            split
            next => cases reached <;> simp
            next => simp

theorem foldlM_follow_leads {segments : List String}
    (success : segments.foldlM disk.follow reached = .ok next) :
    segments.foldlM Path.followSegment? reached = some next := by
  induction segments generalizing reached with
  | nil =>
      cases success
      rfl
  | cons segment rest induction =>
      rw [List.foldlM_cons] at success ⊢
      obtain ⟨middle, first, later⟩ := bind_eq_ok_iff.mp success
      exact Option.bind_eq_some_iff.mpr ⟨middle, (follow_eq_ok_iff.mp first).2, induction later⟩

theorem leadsTo?_of_locate (located : disk.locate path = .ok reached) :
    disk.leadsTo? path = some reached := by
  unfold locate at located
  split at located
  next => cases located
  next => exact foldlM_follow_leads located

/-! ## Directories that stay -/

/-- Every directory of one disk is one of another, which has the same working directory. -/
structure KeepsDirectories (before after : Disk) : Prop where
  working : after.working = before.working
  directory : ∀ {reached}, before.entryAt? reached = some .directory →
    after.entryAt? reached = some .directory

theorem KeepsDirectories.trans (first : before.KeepsDirectories between)
    (second : between.KeepsDirectories after) : before.KeepsDirectories after :=
  ⟨second.working.trans first.working, fun found => second.directory (first.directory found)⟩

theorem KeepsDirectories.foldlM_follow (keeps : before.KeepsDirectories after)
    {segments : List String} (success : segments.foldlM before.follow reached = .ok next) :
    segments.foldlM after.follow reached = .ok next := by
  induction segments generalizing reached with
  | nil => exact success
  | cons segment rest induction =>
      rw [List.foldlM_cons] at success ⊢
      obtain ⟨middle, first, later⟩ := bind_eq_ok_iff.mp success
      obtain ⟨found, leads⟩ := follow_eq_ok_iff.mp first
      exact bind_eq_ok_iff.mpr
        ⟨middle, follow_eq_ok_iff.mpr ⟨keeps.directory found, leads⟩, induction later⟩

theorem KeepsDirectories.locate (keeps : before.KeepsDirectories after)
    (located : before.locate path = .ok reached) : after.locate path = .ok reached := by
  have start : after.startOf path = before.startOf path := by
    rw [startOf, startOf, keeps.working]
  rw [Disk.locate] at located ⊢
  split at located
  next => cases located
  next some => rw [if_neg some, start]; exact keeps.foldlM_follow located

theorem entryAt?_setEntry_of_ne (different : location next ≠ location reached) :
    (disk.setEntry reached entry).entryAt? next = disk.entryAt? next := by
  rw [entryAt?, entryAt?, setEntry, Keyed.get?_insert, if_neg different]

theorem entryAt?_setEntry (some : reached ≠ []) :
    (disk.setEntry reached entry).entryAt? reached = .some entry := by
  rw [entryAt?, if_neg (by simpa using some), setEntry, Keyed.get?_insert, if_pos rfl]

/-- Putting an entry where no directory is keeps all directories. -/
theorem keepsDirectories_setEntry (notDirectory : disk.entryAt? reached ≠ some .directory) :
    disk.KeepsDirectories (disk.setEntry reached entry) where
  working := rfl
  directory := by
    intro other found
    have some : reached ≠ [] := by
      rintro rfl
      exact notDirectory rfl
    rw [entryAt?] at found notDirectory ⊢
    rw [if_neg (by simpa using some)] at notDirectory
    split at found
    next top => rw [if_pos top]
    next notTop =>
      rw [if_neg notTop, setEntry, Keyed.get?_insert, if_neg ?_]
      · exact found
      · intro same
        exact notDirectory (same ▸ found)

/-- Removing an entry that is no directory keeps all directories. -/
theorem keepsDirectories_removeEntry (notDirectory : disk.entryAt? reached ≠ some .directory) :
    disk.KeepsDirectories (disk.removeEntry reached) where
  working := rfl
  directory := by
    intro other found
    have some : reached ≠ [] := by
      rintro rfl
      exact notDirectory rfl
    rw [entryAt?] at found notDirectory ⊢
    rw [if_neg (by simpa using some)] at notDirectory
    split at found
    next top => rw [if_pos top]
    next notTop =>
      rw [if_neg notTop, removeEntry, Keyed.get?_erase, if_neg ?_]
      · exact found
      · intro same
        exact notDirectory (same ▸ found)

/-! ## Directories that are made -/

/-- One disk has all that another has, and nothing else but directories. -/
structure Extends (before after : Disk) : Prop where
  working : after.working = before.working
  kept {place : String} {entry : DiskEntry} (found : before.entries.get? place = some entry) :
    after.entries.get? place = some entry
  added {place : String} {entry : DiskEntry} (found : after.entries.get? place = some entry) :
    before.entries.get? place = some entry ∨ entry = .directory

theorem Extends.refl (disk : Disk) : disk.Extends disk := ⟨rfl, id, .inl⟩

theorem Extends.trans (first : before.Extends between) (second : between.Extends after) :
    before.Extends after where
  working := second.working.trans first.working
  kept found := second.kept (first.kept found)
  added found := by
    rcases second.added found with found | directory
    · exact first.added found
    · exact .inr directory

theorem Extends.entryAt? (grown : before.Extends after) (found : before.entryAt? reached = some entry) :
    after.entryAt? reached = some entry := by
  unfold Disk.entryAt? at found ⊢
  split at found
  next top => rw [if_pos top]; exact found
  next notTop => rw [if_neg notTop]; exact grown.kept found

theorem Extends.keepsDirectories (grown : before.Extends after) :
    before.KeepsDirectories after :=
  ⟨grown.working, fun found => grown.entryAt? found⟩

theorem extends_setEntry_directory (absent : disk.entryAt? reached = none) :
    disk.Extends (disk.setEntry reached .directory) where
  working := rfl
  kept := by
    intro place entry found
    have different : place ≠ location reached := by
      rintro rfl
      unfold Disk.entryAt? at absent
      split at absent
      next => cases absent
      next => rw [absent] at found; cases found
    rw [setEntry, Keyed.get?_insert, if_neg different]
    exact found
  added := by
    intro place entry found
    rw [setEntry, Keyed.get?_insert] at found
    split at found
    next => exact .inr (Option.some.inj found).symm
    next => exact .inl found

/-- A step of making directories ends in a directory. -/
theorem makeStep_spec (success : makeStep (disk, reached) segment = .ok (changed, next)) :
    disk.Extends changed ∧ disk.entryAt? reached = some .directory ∧
      Path.followSegment? reached segment = some next ∧
      changed.entryAt? next = some .directory := by
  obtain ⟨place, followed, made⟩ := bind_eq_ok_iff.mp success
  obtain ⟨isDirectory, leads⟩ := follow_eq_ok_iff.mp followed
  split at made
  next found =>
    cases made
    exact ⟨.refl disk, isDirectory, leads, found⟩
  next => cases made
  next absent =>
    cases made
    have some : next ≠ [] := by
      rintro rfl
      cases absent
    exact ⟨extends_setEntry_directory absent, isDirectory, leads, entryAt?_setEntry some⟩

theorem foldlM_makeStep_spec {disk made : Disk} {reached next segments : List String}
    (begins : disk.entryAt? reached = some .directory)
    (success : segments.foldlM makeStep (disk, reached) = .ok (made, next)) :
    disk.Extends made ∧ made.entryAt? next = some .directory ∧
      segments.foldlM Path.followSegment? reached = some next ∧
      segments.foldlM made.follow reached = .ok next := by
  induction segments generalizing disk reached with
  | nil =>
      cases success
      exact ⟨.refl _, begins, rfl, rfl⟩
  | cons segment rest induction =>
      rw [List.foldlM_cons] at success
      obtain ⟨⟨between, middle⟩, first, later⟩ := bind_eq_ok_iff.mp success
      obtain ⟨grows, isDirectory, leads, ends⟩ := makeStep_spec first
      obtain ⟨growsOn, isMade, leadsOn, follows⟩ := induction ends later
      have all := grows.trans growsOn
      refine ⟨all, isMade, ?_, ?_⟩
      · rw [List.foldlM_cons]
        exact Option.bind_eq_some_iff.mpr ⟨middle, leads, leadsOn⟩
      · rw [List.foldlM_cons]
        exact bind_eq_ok_iff.mpr
          ⟨middle, follow_eq_ok_iff.mpr ⟨all.entryAt? isDirectory, leads⟩, follows⟩

/-- The first step of making directories begins in a directory. -/
theorem directory_of_foldlM_makeStep {segments : List String} (some : segments ≠ [])
    (success : segments.foldlM makeStep (disk, reached) = .ok (made, next)) :
    disk.entryAt? reached = .some .directory := by
  obtain ⟨segment, rest, rfl⟩ := List.exists_cons_of_ne_nil some
  rw [List.foldlM_cons] at success
  obtain ⟨⟨_, _⟩, first, -⟩ := bind_eq_ok_iff.mp success
  exact (makeStep_spec first).2.1

theorem makeDirectories_eq_ok_iff (some : path ≠ "") :
    disk.makeDirectories path = .ok made ↔
      ∃ reached, (Path.segments path).foldlM makeStep (disk, disk.startOf path) =
        .ok (made, reached) := by
  rw [makeDirectories, if_neg some]
  cases (Path.segments path).foldlM makeStep (disk, disk.startOf path) with
  | ok state => simp [Prod.ext_iff]
  | error fault => simp

/-- Directories that were made are there, where their path leads. -/
theorem makeDirectories_spec (some : path ≠ "") (success : disk.makeDirectories path = .ok made) :
    disk.Extends made ∧ ∃ reached, disk.leadsTo? path = .some reached ∧
      made.locate path = .ok reached ∧ made.entryAt? reached = .some .directory := by
  obtain ⟨reached, steps⟩ := (makeDirectories_eq_ok_iff some).mp success
  have begins := directory_of_foldlM_makeStep (Path.segments_ne_nil path) steps
  obtain ⟨grows, isMade, leads, follows⟩ := foldlM_makeStep_spec begins steps
  refine ⟨grows, reached, leads, ?_, isMade⟩
  have start : made.startOf path = disk.startOf path := by
    rw [startOf, startOf, grows.working]
  rw [Disk.locate, if_neg some, start, follows]

theorem foldlM_makeStep_of_follow {segments : List String}
    (follows : segments.foldlM disk.follow reached = .ok next)
    (isDirectory : disk.entryAt? next = some .directory) :
    segments.foldlM makeStep (disk, reached) = .ok (disk, next) := by
  induction segments generalizing reached with
  | nil =>
      cases follows
      rfl
  | cons segment rest induction =>
      rw [List.foldlM_cons] at follows ⊢
      obtain ⟨middle, first, later⟩ := bind_eq_ok_iff.mp follows
      have found : disk.entryAt? middle = some .directory := by
        cases rest with
        | nil =>
            cases later
            exact isDirectory
        | cons other others =>
            rw [List.foldlM_cons] at later
            obtain ⟨_, second, -⟩ := bind_eq_ok_iff.mp later
            exact (follow_eq_ok_iff.mp second).1
      have stays : makeStep (disk, reached) segment = .ok (disk, middle) :=
        bind_eq_ok_iff.mpr ⟨middle, first, by rw [found]⟩
      exact bind_eq_ok_iff.mpr ⟨(disk, middle), stays, induction later⟩

/-- Directories that are there are not made. -/
theorem makeDirectories_of_directory (located : disk.locate path = .ok reached)
    (isDirectory : disk.entryAt? reached = some .directory) :
    disk.makeDirectories path = .ok disk := by
  unfold Disk.locate at located
  split at located
  next => cases located
  next some =>
    exact (makeDirectories_eq_ok_iff some).mpr ⟨_, foldlM_makeStep_of_follow located isDirectory⟩

end CodeAtlas.Disk
