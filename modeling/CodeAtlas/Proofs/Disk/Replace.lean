import CodeAtlas.Proofs.CodeReference
import CodeAtlas.Proofs.Disk.Directories
import CodeAtlas.Store

/-!
# Documents that are replaced

A document stands under a name in a directory.  It is replaced in three steps, each of which
keeps all directories, and nothing but the document and the file beside it can change.  What was
written is what is read afterwards.
-/

namespace CodeAtlas

namespace Path

variable {directory name : String}

/-- A path that is something and does not end in a slash. -/
def IsPlain (directory : String) : Prop := directory ≠ "" ∧ directory.endsWith "/" = false

theorem startsWith_entryName (proper : IsEntryName name) : name.startsWith "/" = false := by
  have named : ∀ other ∈ [name], IsName other := by simpa using proper.1
  simpa [ofSegments] using startsWith_slash_eq_false named

theorem resolve_entryName (plain : IsPlain directory) (proper : IsEntryName name) :
    resolve directory name = directory ++ "/" ++ name := by
  rw [resolve, if_neg (by simp [startsWith_entryName proper]), if_neg plain.1,
    if_neg (by simp [plain.2])]

theorem parent_resolve (plain : IsPlain directory) (proper : IsEntryName name) :
    parent (resolve directory name) = directory := by
  have whole : (directory ++ "/" ++ name).toList = directory.toList ++ '/' :: name.toList := by
    simp
  rw [resolve_entryName plain proper, parent, whole, Text.splitLast?_append proper.1.2]
  exact String.ofList_toList

theorem segments_entryName (proper : IsEntryName name) : segments name = [name] := by
  have back : segments (ofSegments [name]) = [name] :=
    segments_ofSegments (by simp) (by simpa using proper.1.2)
  simpa [ofSegments] using back

/-- A path that ends in the name of a file is plain. -/
theorem isPlain_append (proper : IsEntryName name) (front : String) : IsPlain (front ++ name) := by
  constructor
  · intro empty
    exact proper.1.1 (String.append_eq_empty_iff.mp empty).2
  · rw [← Bool.not_eq_true, endsWith_slash_iff]
    rintro ⟨other, same⟩
    obtain ⟨characters, last, split⟩ : ∃ characters last, name.toList = characters ++ [last] := by
      rcases List.eq_nil_or_concat name.toList with empty | ⟨characters, last, split⟩
      · exact absurd (String.toList_injective empty) proper.1.1
      · exact ⟨characters, last, by simpa using split⟩
    have ends := congrArg (·.toList.getLast?) same
    simp only [String.toList_append, split] at ends
    have slash : last = '/' := by simpa using ends
    exact proper.1.2 (by simp [split, slash])

theorem isPlain_resolve (proper : IsEntryName name) : IsPlain (resolve directory name) := by
  rw [resolve, if_neg (by simp [startsWith_entryName proper])]
  split
  · simpa using isPlain_append proper ""
  · split
    · exact isPlain_append proper _
    · exact isPlain_append proper _

end Path

namespace Disk

variable {disk made before after : Disk} {reached next : List String}
  {directory name other text : String} {content : ByteArray} {now : Instant}

/-! ## Names in a directory -/

theorem location_cons (name : String) (reached : List String) :
    location (name :: reached) =
      if reached = [] then name else location reached ++ "/" ++ name := by
  rw [location, location, List.reverse_cons]
  split
  next top => simp [top, Path.ofSegments]
  next notTop =>
    rw [Path.ofSegments, String.intercalate_append_of_ne_nil (by simpa using notTop) (by simp),
      String.intercalate_singleton]
    rfl

theorem location_cons_injective {name other : String}
    (same : location (name :: reached) = location (other :: reached)) : name = other := by
  rw [location_cons, location_cons] at same
  split at same
  · exact same
  · exact (String.append_right_inj _).mp same

/-- The path of an entry of a directory leads there when its directory does. -/
theorem locate_resolve_eq_ok_iff (plain : Path.IsPlain directory)
    (proper : Path.IsEntryName name) :
    disk.locate (Path.resolve directory name) = .ok next ↔
      ∃ reached, disk.locate directory = .ok reached ∧
        disk.entryAt? reached = some .directory ∧ next = name :: reached := by
  have some : directory ++ "/" ++ name ≠ "" := by simp
  have start : disk.startOf (directory ++ "/" ++ name) = disk.startOf directory := by
    rw [← Path.resolve_entryName plain proper, startOf, startOf,
      Path.startsWith_resolve plain.1 (Path.startsWith_entryName proper)]
  rw [Path.resolve_entryName plain proper, locate, if_neg some, start, Path.segments_append,
    Path.segments_entryName proper, List.foldlM_append, bind_eq_ok_iff, locate, if_neg plain.1]
  refine exists_congr fun reached => and_congr_right fun _ => ?_
  rw [List.foldlM_cons, bind_eq_ok_iff]
  simp only [follow_entryName proper, List.foldlM_nil]
  constructor
  · rintro ⟨middle, ⟨isDirectory, rfl⟩, same⟩
    cases same
    exact ⟨isDirectory, rfl⟩
  · rintro ⟨isDirectory, rfl⟩
    exact ⟨_, ⟨isDirectory, rfl⟩, rfl⟩

/-! ## What a document holds -/

theorem entry_eq_ok_iff {path : String} {found : DiskEntry} : disk.entry path = .ok found ↔
    ∃ reached, disk.locate path = .ok reached ∧ disk.entryAt? reached = some found := by
  rw [entry, bind_eq_ok_iff]
  refine exists_congr fun reached => and_congr_right fun _ => ?_
  cases disk.entryAt? reached <;> simp

theorem read_eq_ok_iff_entryAt? {path : String} : disk.read path = .ok content ↔
    ∃ reached modified, disk.locate path = .ok reached ∧
      disk.entryAt? reached = some (.file content modified) := by
  have isFile : disk.read path = .ok content ↔
      ∃ modified, disk.entry path = .ok (.file content modified) := by
    rw [read, bind_eq_ok_iff]
    constructor
    · rintro ⟨_ | _, isEntry, same⟩ <;> cases same
      exact ⟨_, isEntry⟩
    · rintro ⟨modified, isEntry⟩
      exact ⟨_, isEntry, rfl⟩
  simp only [isFile, entry_eq_ok_iff]
  exact exists_comm

theorem readText_eq_ok_iff_read {path : String} : disk.readText path = .ok text ↔
    disk.read path = .ok text.toUTF8 := by
  rw [readText, bind_eq_ok_iff]
  constructor
  · rintro ⟨content, isRead, decoded⟩
    split at decoded
    next found isText =>
      cases decoded
      rw [String.fromUTF8?] at isText
      split at isText
      next => cases isText; exact isRead
      next => cases isText
    next => cases decoded
  · intro isRead
    refine ⟨_, isRead, ?_⟩
    have decoded : String.fromUTF8? text.toUTF8 = some text := by
      rw [String.fromUTF8?, String.toUTF8_eq_toByteArray, dif_pos text.isValidUTF8]
      rfl
    rw [decoded]

/-- Another file of a directory can be read as well as before if its entry has not changed. -/
theorem readText_resolve_congr (plain : Path.IsPlain directory) (proper : Path.IsEntryName name)
    (located : before.locate directory = .ok reached)
    (isDirectory : before.entryAt? reached = some .directory)
    (keeps : before.KeepsDirectories after)
    (same : after.entryAt? (name :: reached) = before.entryAt? (name :: reached)) :
    after.readText (Path.resolve directory name) =
      before.readText (Path.resolve directory name) := by
  have onBefore : before.locate (Path.resolve directory name) = .ok (name :: reached) :=
    (locate_resolve_eq_ok_iff plain proper).mpr ⟨reached, located, isDirectory, rfl⟩
  have onAfter := keeps.locate onBefore
  have sameRead : after.read (Path.resolve directory name) =
      before.read (Path.resolve directory name) := by
    rw [read, read, entry, entry, onBefore, onAfter]
    simp only [bind, Except.bind, same]
  rw [readText, readText, sameRead]

/-! ## Replacing a document -/

/-- The directory of a document has been made. -/
structure Makes (disk made : Disk) (directory : String) (reached : List String) : Prop where
  success : disk.makeDirectories directory = .ok made
  grown : disk.Extends made
  leads : disk.leadsTo? directory = some reached
  located : made.locate directory = .ok reached
  isDirectory : made.entryAt? reached = some .directory

theorem exists_makes (plain : Path.IsPlain directory)
    (success : disk.makeDirectories directory = .ok made) :
    ∃ reached, disk.Makes made directory reached := by
  obtain ⟨grown, reached, leads, located, isDirectory⟩ := makeDirectories_spec plain.1 success
  exact ⟨reached, success, grown, leads, located, isDirectory⟩

theorem makes_of_directory (located : disk.locate directory = .ok reached)
    (isDirectory : disk.entryAt? reached = some .directory) :
    disk.Makes disk directory reached :=
  ⟨makeDirectories_of_directory located isDirectory, .refl disk, leadsTo?_of_locate located,
    located, isDirectory⟩

/-- The name of the file beside a document where its new text is written first. -/
def temporary (name : String) : String := name ++ ".tmp"

theorem isEntryName_temporary (proper : Path.IsEntryName name) :
    Path.IsEntryName (temporary name) := by
  have long : 4 ≤ (temporary name).length := by
    rw [temporary, String.length_append]
    exact Nat.le_add_left 4 name.length
  refine ⟨⟨?_, ?_⟩, ?_, ?_⟩
  · rintro same
    rw [same] at long
    exact absurd long (by decide)
  · simp only [temporary, String.toList_append, List.mem_append, not_or]
    exact ⟨proper.1.2, by decide⟩
  · rintro same
    rw [same] at long
    exact absurd long (by decide)
  · rintro same
    rw [same] at long
    exact absurd long (by decide)

theorem temporary_ne (name : String) : temporary name ≠ name := by
  intro same
  have length := congrArg String.length same
  have four : ".tmp".length = 4 := by decide
  rw [temporary, String.length_append] at length
  omega

theorem temporaryPath_resolve (plain : Path.IsPlain directory) (proper : Path.IsEntryName name) :
    Store.temporaryPath (Path.resolve directory name) =
      Path.resolve directory (temporary name) := by
  rw [Path.resolve_entryName plain proper,
    Path.resolve_entryName plain (isEntryName_temporary proper), Store.temporaryPath, temporary,
    String.append_assoc]

/-- The disk with the new text of a document beside it. -/
def prepared (disk : Disk) (reached : List String) (name : String) (content : ByteArray)
    (now : Instant) : Disk :=
  disk.setEntry (temporary name :: reached) (.file content now)

/-- The disk with a document replaced. -/
def replaced (disk : Disk) (reached : List String) (name : String) (content : ByteArray)
    (now : Instant) : Disk :=
  ((disk.prepared reached name content now).removeEntry (temporary name :: reached)).setEntry
    (name :: reached) (.file content now)

theorem get?_prepared (place : String) :
    (disk.prepared reached name content now).entries.get? place =
      if place = location (temporary name :: reached) then some (.file content now)
      else disk.entries.get? place :=
  Keyed.get?_insert ..

theorem get?_replaced (place : String) :
    (disk.replaced reached name content now).entries.get? place =
      if place = location (name :: reached) then some (.file content now)
      else if place = location (temporary name :: reached) then none
      else disk.entries.get? place := by
  rw [replaced, setEntry, Keyed.get?_insert]
  split
  next => rfl
  next =>
    rw [removeEntry, Keyed.get?_erase, get?_prepared]
    split <;> rfl

theorem entryAt?_prepared_of_ne {other : String} (different : other ≠ temporary name) :
    (disk.prepared reached name content now).entryAt? (other :: reached) =
      disk.entryAt? (other :: reached) := by
  rw [entryAt?_cons, entryAt?_cons, get?_prepared,
    if_neg fun same => different (location_cons_injective same)]

theorem keepsDirectories_prepared (content : ByteArray) (now : Instant)
    (notDirectory : disk.entryAt? (temporary name :: reached) ≠ some .directory) :
    disk.KeepsDirectories (disk.prepared reached name content now) :=
  keepsDirectories_setEntry notDirectory

theorem write_resolve (plain : Path.IsPlain directory) (proper : Path.IsEntryName name)
    (located : disk.locate directory = .ok reached)
    (isDirectory : disk.entryAt? reached = some .directory) :
    disk.write (Path.resolve directory name) content now =
      if disk.entryAt? (name :: reached) = some .directory then .error .isDirectory
      else .ok (disk.setEntry (name :: reached) (.file content now)) := by
  have leads : disk.locate (Path.resolve directory name) = .ok (name :: reached) :=
    (locate_resolve_eq_ok_iff plain proper).mpr ⟨reached, located, isDirectory, rfl⟩
  rw [write, leads]
  simp only [bind, Except.bind, List.drop_one, List.tail_cons, isDirectory]
  cases disk.entryAt? (name :: reached) with
  | none => simp
  | some entry => cases entry <;> simp

theorem rename_temporary (plain : Path.IsPlain directory) (proper : Path.IsEntryName name)
    (located : disk.locate directory = .ok reached)
    (isDirectory : disk.entryAt? reached = some .directory)
    (free : disk.entryAt? (temporary name :: reached) ≠ some .directory) :
    (disk.prepared reached name content now).rename (Path.resolve directory (temporary name))
        (Path.resolve directory name) =
      if disk.entryAt? (name :: reached) = some .directory then .error .isDirectory
      else .ok (disk.replaced reached name content now) := by
  have keeps := keepsDirectories_prepared content now free
  have origin : (disk.prepared reached name content now).locate
      (Path.resolve directory (temporary name)) = .ok (temporary name :: reached) :=
    keeps.locate ((locate_resolve_eq_ok_iff plain (isEntryName_temporary proper)).mpr
      ⟨reached, located, isDirectory, rfl⟩)
  have goal : (disk.prepared reached name content now).locate
      (Path.resolve directory name) = .ok (name :: reached) :=
    keeps.locate ((locate_resolve_eq_ok_iff plain proper).mpr
      ⟨reached, located, isDirectory, rfl⟩)
  have written : (disk.prepared reached name content now).entryAt? (temporary name :: reached) =
      some (.file content now) :=
    entryAt?_setEntry (by simp)
  rw [rename, origin, goal]
  simp only [bind, Except.bind, written, entryAt?_prepared_of_ne (temporary_ne name).symm]
  cases disk.entryAt? (name :: reached) with
  | none => simp [replaced]
  | some entry => cases entry <;> simp [replaced]

/-- A document is replaced if neither it nor the file beside it is a directory. -/
theorem runAll_documentSteps (plain : Path.IsPlain directory) (proper : Path.IsEntryName name)
    (makes : disk.Makes made directory reached) :
    DiskStep.runAll now (Store.documentSteps (Path.resolve directory name) text) disk =
      if made.entryAt? (temporary name :: reached) = some .directory then (made, some .isDirectory)
      else if made.entryAt? (name :: reached) = some .directory then
        (made.prepared reached name text.toUTF8 now, some .isDirectory)
      else (made.replaced reached name text.toUTF8 now, none) := by
  rw [Store.documentSteps, Path.parent_resolve plain proper, temporaryPath_resolve plain proper,
    DiskStep.runAll, DiskStep.run, makes.success]
  dsimp only
  rw [DiskStep.runAll, DiskStep.run,
    write_resolve plain (isEntryName_temporary proper) makes.located makes.isDirectory]
  split_ifs with blocked taken
  · rfl
  · dsimp only
    rw [DiskStep.runAll, DiskStep.run, ← prepared,
      rename_temporary plain proper makes.located makes.isDirectory blocked, if_pos taken]
  · dsimp only
    rw [DiskStep.runAll, DiskStep.run, ← prepared,
      rename_temporary plain proper makes.located makes.isDirectory blocked, if_neg taken]
    rfl

/-- Without its directory a document is not touched. -/
theorem runAll_documentSteps_error {fault : DiskFault} (plain : Path.IsPlain directory)
    (proper : Path.IsEntryName name) (failure : disk.makeDirectories directory = .error fault) :
    DiskStep.runAll now (Store.documentSteps (Path.resolve directory name) text) disk =
      (disk, some fault) := by
  rw [Store.documentSteps, Path.parent_resolve plain proper, DiskStep.runAll, DiskStep.run,
    failure]

/-! ## After a document was replaced -/

/-- Nothing stands in the way of a document. -/
structure IsFree (disk : Disk) (reached : List String) (name : String) : Prop where
  document : disk.entryAt? (name :: reached) ≠ some .directory
  beside : disk.entryAt? (temporary name :: reached) ≠ some .directory

theorem entryAt?_replaced :
    (disk.replaced reached name content now).entryAt? (name :: reached) =
      some (.file content now) := by
  rw [entryAt?_cons, get?_replaced, if_pos rfl]

theorem entryAt?_replaced_temporary :
    (disk.replaced reached name content now).entryAt? (temporary name :: reached) = none := by
  rw [entryAt?_cons, get?_replaced,
    if_neg fun same => temporary_ne name (location_cons_injective same), if_pos rfl]

theorem entryAt?_replaced_of_ne {other : String} (notDocument : other ≠ name)
    (notBeside : other ≠ temporary name) :
    (disk.replaced reached name content now).entryAt? (other :: reached) =
      disk.entryAt? (other :: reached) := by
  rw [entryAt?_cons, entryAt?_cons, get?_replaced,
    if_neg fun same => notDocument (location_cons_injective same),
    if_neg fun same => notBeside (location_cons_injective same)]

theorem isFree_replaced : (disk.replaced reached name content now).IsFree reached name := by
  constructor
  · rw [entryAt?_replaced]
    simp
  · rw [entryAt?_replaced_temporary]
    simp

theorem IsFree.keepsDirectories (free : disk.IsFree reached name) :
    disk.KeepsDirectories (disk.replaced reached name content now) where
  working := rfl
  directory := by
    intro other found
    rw [entryAt?] at found ⊢
    split at found
    next top => rw [if_pos top]
    next notTop =>
      rw [if_neg notTop, get?_replaced, if_neg, if_neg]
      · exact found
      · intro same
        exact free.beside (by rw [entryAt?_cons, ← same]; exact found)
      · intro same
        exact free.document (by rw [entryAt?_cons, ← same]; exact found)

/-- What was written is read. -/
theorem readText_replaced (plain : Path.IsPlain directory) (proper : Path.IsEntryName name)
    (located : disk.locate directory = .ok reached)
    (isDirectory : disk.entryAt? reached = some .directory) (free : disk.IsFree reached name) :
    (disk.replaced reached name text.toUTF8 now).readText (Path.resolve directory name) =
      .ok text := by
  have leads : disk.locate (Path.resolve directory name) = .ok (name :: reached) :=
    (locate_resolve_eq_ok_iff plain proper).mpr ⟨reached, located, isDirectory, rfl⟩
  rw [readText_eq_ok_iff_read, read_eq_ok_iff_entryAt?]
  exact ⟨_, now, free.keepsDirectories.locate leads, entryAt?_replaced⟩

/-- Other documents of the directory are read as before. -/
theorem readText_replaced_of_ne {other : String} (plain : Path.IsPlain directory)
    (proper : Path.IsEntryName other) (located : disk.locate directory = .ok reached)
    (isDirectory : disk.entryAt? reached = some .directory) (free : disk.IsFree reached name)
    (notDocument : other ≠ name) (notBeside : other ≠ temporary name) :
    (disk.replaced reached name content now).readText (Path.resolve directory other) =
      disk.readText (Path.resolve directory other) :=
  readText_resolve_congr plain proper located isDirectory free.keepsDirectories
    (entryAt?_replaced_of_ne notDocument notBeside)

end Disk

end CodeAtlas
