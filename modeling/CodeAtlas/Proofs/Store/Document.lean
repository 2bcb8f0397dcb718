import CodeAtlas.Proofs.Disk.Replace

/-!
# Documents of a store

The documents of a store stand in its data directory.  What comes of writing one is said by the
steps that replace it: either it holds the new text, or the action has failed.
-/

namespace CodeAtlas

namespace DiskAction

variable {α β : Type}

theorem runOn_bind (action : DiskAction α) (next : α → DiskAction β) (disk : Disk) :
    (action >>= next).runOn disk =
      match action.runOn disk with
      | (.ok value, after) => (next value).runOn after
      | (.error problem, after) => (.error problem, after) := by
  change ExceptT.bindCont next (action.runOn disk).1 (action.runOn disk).2 = _
  rcases action.runOn disk with ⟨_ | _, after⟩ <;> rfl

@[simp] theorem runOn_pure (value : α) (disk : Disk) :
    (pure value : DiskAction α).runOn disk = (.ok value, disk) :=
  rfl

@[simp] theorem runOn_get (disk : Disk) : (get : DiskAction Disk).runOn disk = (.ok disk, disk) :=
  rfl

@[simp] theorem runOn_set (disk changed : Disk) :
    (set changed : DiskAction PUnit).runOn disk = (.ok (), changed) :=
  rfl

@[simp] theorem runOn_throw (problem : Problem) (disk : Disk) :
    (throw problem : DiskAction α).runOn disk = (.error problem, disk) :=
  rfl

/-- What steps come to, as an action. -/
theorem runOn_perform (steps : List DiskStep) (now : Instant) (disk : Disk) :
    (perform steps now).runOn disk =
      (match (DiskStep.runAll now steps disk).2 with
        | none => .ok ()
        | some fault => .error (.inputOutput fault),
        (DiskStep.runAll now steps disk).1) := by
  rw [perform, runOn_bind, runOn_get]
  dsimp only
  rcases DiskStep.runAll now steps disk with ⟨after, fault?⟩
  cases fault? <;> simp [runOn_bind]

theorem runOn_bind_eq_ok_iff {action : DiskAction α} {next : α → DiskAction β} {disk after : Disk}
    {value : β} : (action >>= next).runOn disk = (.ok value, after) ↔
      ∃ first between, action.runOn disk = (.ok first, between) ∧
        (next first).runOn between = (.ok value, after) := by
  rw [runOn_bind]
  rcases action.runOn disk with ⟨_ | first, between⟩
  · simp
  · simp [Prod.ext_iff, and_assoc]

/-- Looking at a disk does not change it. -/
theorem runOn_inspect (look : Disk → Except Problem α) (disk : Disk) :
    (inspect look).runOn disk = (look disk, disk) := by
  rw [inspect, runOn_bind, runOn_get]
  dsimp only
  cases look disk <;> rfl

theorem runOn_inspect_eq_ok_iff {look : Disk → Except Problem α} {disk after : Disk} {value : α} :
    (inspect look).runOn disk = (.ok value, after) ↔ look disk = .ok value ∧ after = disk := by
  rw [runOn_inspect, Prod.ext_iff]
  exact and_congr_right fun _ => eq_comm

end DiskAction

namespace Store

variable {store : Store} {disk made : Disk} {reached : List String} {name : String} {value : Json}
  {now : Instant}

/-- The path of the data directory is plain. -/
theorem isPlain_dataDirectory (store : Store) : Path.IsPlain store.dataDirectory :=
  Path.isPlain_resolve (by decide)

theorem isEntryName_knowledge : Path.IsEntryName "knowledge.json" := by decide

theorem isEntryName_graph : Path.IsEntryName "graph.json" := by decide

/-- A document is written if its directory can be made and nothing stands in its way. -/
theorem runOn_writeDocument {directory : String} (plain : Path.IsPlain directory)
    (proper : Path.IsEntryName name) (makes : disk.Makes made directory reached)
    (free : made.IsFree reached name) :
    (writeDocument (Path.resolve directory name) value now).runOn disk =
      (.ok (), made.replaced reached name value.pretty.toUTF8 now) := by
  rw [writeDocument, DiskAction.runOn_perform, Disk.runAll_documentSteps plain proper makes,
    if_neg free.beside, if_neg free.document]

/-- Whatever is written at a path, writing it succeeds. -/
def CanWrite (disk : Disk) (path : String) : Prop :=
  ∀ value now, ((writeDocument path value now).runOn disk).1 = .ok ()

/-- A document that was replaced had a directory and nothing in its way. -/
theorem exists_makes_of_complete {directory text : String} (plain : Path.IsPlain directory)
    (proper : Path.IsEntryName name) (complete :
      (DiskStep.runAll now (documentSteps (Path.resolve directory name) text) disk).2 = none) :
    ∃ made reached, disk.Makes made directory reached ∧ made.IsFree reached name := by
  cases made : disk.makeDirectories directory with
  | error fault =>
      rw [Disk.runAll_documentSteps_error plain proper made] at complete
      cases complete
  | ok after =>
      obtain ⟨reached, makes⟩ := Disk.exists_makes plain made
      rw [Disk.runAll_documentSteps plain proper makes] at complete
      by_cases beside : after.entryAt? (Disk.temporary name :: reached) = some .directory
      · rw [if_pos beside] at complete
        cases complete
      · by_cases document : after.entryAt? (name :: reached) = some .directory
        · rw [if_neg beside, if_pos document] at complete
          cases complete
        · exact ⟨after, reached, makes, document, beside⟩

theorem exists_makes_of_writeDocument {directory : String} (plain : Path.IsPlain directory)
    (proper : Path.IsEntryName name)
    (success : ((writeDocument (Path.resolve directory name) value now).runOn disk).1 = .ok ()) :
    ∃ made reached, disk.Makes made directory reached ∧ made.IsFree reached name := by
  rw [writeDocument, DiskAction.runOn_perform] at success
  split at success
  next complete => exact exists_makes_of_complete plain proper complete
  next => cases success

/-- A document can be written where there is its directory and no directory in the way. -/
theorem canWrite_of_isDirectory {directory : String} (plain : Path.IsPlain directory)
    (proper : Path.IsEntryName name) (isDirectory : disk.isDirectory directory = true)
    (document : disk.isDirectory (Path.resolve directory name) = false)
    (beside : disk.isDirectory (temporaryPath (Path.resolve directory name)) = false) :
    CanWrite disk (Path.resolve directory name) := by
  intro value now
  obtain ⟨reached, located, entry⟩ := Disk.isDirectory_iff.mp isDirectory
  have notDirectory {other : String} (proper : Path.IsEntryName other)
      (absent : disk.isDirectory (Path.resolve directory other) = false) :
      disk.entryAt? (other :: reached) ≠ some .directory := by
    intro taken
    have there := Disk.isDirectory_iff.mpr ⟨_, (Disk.locate_resolve_eq_ok_iff plain proper).mpr
      ⟨reached, located, entry, rfl⟩, taken⟩
    rw [absent] at there
    cases there
  rw [Disk.temporaryPath_resolve plain proper] at beside
  have free : disk.IsFree reached name := ⟨notDirectory proper document,
    notDirectory (Disk.isEntryName_temporary proper) beside⟩
  rw [runOn_writeDocument plain proper (Disk.makes_of_directory located entry) free]

/-- What a document is read as when it is there. -/
theorem readAs_of_readText {α : Type} {kind : DocumentKind} {decode : Json → Option α}
    {path text : String} (isText : disk.readText path = .ok text) :
    readAs kind decode disk path =
      match (Json.ofText? text).bind decode with
      | some value => .ok (some value)
      | none => .error (.notJson (.text kind text)) := by
  rw [readAs, readDocument, isText]
  change (match (Json.ofText? text).bind decode with
    | some value => _
    | none => _) = _
  cases (Json.ofText? text).bind decode <;> rfl

end Store

end CodeAtlas
