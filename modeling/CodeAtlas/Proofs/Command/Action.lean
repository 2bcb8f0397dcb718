import CodeAtlas.Command.Run
import CodeAtlas.Proofs.Store.Record

/-!
# Actions of a running command

A running command is made of looks at the disk, which change nothing, and of actions of the store.
Recording a run is one of these, whether or not the name of the project can be found.
-/

namespace CodeAtlas

open Command Store

namespace Run

variable {α β : Type} {action : Run α} {next : α → Run β} {disk : Disk}

/-- What a running command comes to on a disk, and the disk afterwards. -/
def runOn (action : Run α) (disk : Disk) : Except Failure α × Disk :=
  (ExceptT.run action).run disk

/-- Arguments that ask for a command run it. -/
theorem runArguments_eq {libraries : Libraries} {arguments : List String} {invocation : Invocation}
    {now : Instant} (parsed : Invocation.ofArguments arguments = .ok invocation) :
    runArguments libraries arguments disk now =
      (.ofResult libraries.wording ((invocation.run libraries.reader now).runOn disk).1,
        ((invocation.run libraries.reader now).runOn disk).2) := by
  rw [runArguments, parsed]
  rfl

theorem runOn_bind (action : Run α) (next : α → Run β) (disk : Disk) :
    (action >>= next).runOn disk =
      match action.runOn disk with
      | (.ok value, after) => (next value).runOn after
      | (.error failure, after) => (.error failure, after) := by
  change ExceptT.bindCont next (action.runOn disk).1 (action.runOn disk).2 = _
  rcases action.runOn disk with ⟨_ | _, after⟩ <;> rfl

@[simp] theorem runOn_pure (value : α) (disk : Disk) :
    (pure value : Run α).runOn disk = (.ok value, disk) :=
  rfl

@[simp] theorem runOn_throw (failure : Failure) (disk : Disk) :
    (throw failure : Run α).runOn disk = (.error failure, disk) :=
  rfl

@[simp] theorem runOn_get (disk : Disk) : (get : Run Disk).runOn disk = (.ok disk, disk) :=
  rfl

theorem runOn_act (action : DiskAction α) (circumstance : Option Circumstance) (disk : Disk) :
    (act action circumstance).runOn disk =
      ((action.runOn disk).1.mapError (.stopped · circumstance), (action.runOn disk).2) := by
  change (match action.runOn disk with
    | (result, after) => (result.mapError (Failure.stopped · circumstance), after)) = _
  rfl

theorem runOn_look (read : Disk → Except Problem α) (circumstance : Option Circumstance)
    (disk : Disk) : (look read circumstance).runOn disk =
      ((read disk).mapError (.stopped · circumstance), disk) := by
  rw [look, runOn_act, DiskAction.runOn_inspect]

/-! ## Looks -/

/-- An action that leaves the disk as it is. -/
def IsLook (action : Run α) : Prop := ∀ disk, (action.runOn disk).2 = disk

theorem isLook_pure (value : α) : IsLook (pure value : Run α) := fun _ => rfl

theorem isLook_throw (failure : Failure) : IsLook (throw failure : Run α) := fun _ => rfl

theorem isLook_get : IsLook (get : Run Disk) := fun _ => rfl

theorem isLook_look (read : Disk → Except Problem α) (circumstance : Option Circumstance) :
    IsLook (look read circumstance) := fun disk => by rw [runOn_look]

theorem IsLook.bind (looks : IsLook action) (rest : ∀ value, IsLook (next value)) :
    IsLook (action >>= next) := by
  intro disk
  have same := looks disk
  rw [runOn_bind]
  revert same
  rcases action.runOn disk with ⟨_ | value, after⟩ <;> intro same
  · exact same
  · exact (rest value after).trans same

/-- After a look an action goes on where it was. -/
theorem IsLook.runOn_bind (looks : IsLook action) (next : α → Run β) (disk : Disk) :
    (action >>= next).runOn disk =
      match (action.runOn disk).1 with
      | .ok value => (next value).runOn disk
      | .error failure => (.error failure, disk) := by
  have same := looks disk
  rw [Run.runOn_bind]
  revert same
  rcases action.runOn disk with ⟨_ | value, after⟩ <;> rintro rfl <;> rfl

theorem isLook_projectName (store : Store) : IsLook (projectName store) :=
  (isLook_look _ _).bind fun _ => isLook_get.bind fun _ => isLook_pure _

theorem isLook_loadKnowledge (store : Store) (now : Instant) : IsLook (loadKnowledge store now) :=
  (isLook_projectName store).bind fun _ => isLook_look _ _

/-! ## Recording -/

variable {store : Store} {base : List String} {document : Document} {value : Json}

/-- The name of a project is found where its graph can be loaded or is missing. -/
theorem projectName_cases (store : Store) (disk : Disk) :
    (∃ problem, store.loadGraph disk = .error problem ∧
        (projectName store).runOn disk = (.error (.stopped problem none), disk)) ∨
      ∃ project, (projectName store).runOn disk = (.ok project, disk) := by
  rw [projectName, Run.runOn_bind, runOn_look]
  cases store.loadGraph disk with
  | error problem => exact .inl ⟨problem, rfl, rfl⟩
  | ok graph => exact .inr ⟨_, rfl⟩

/-- Knowledge is loaded under some name, unless a document cannot be read. -/
theorem loadKnowledge_cases (store : Store) (now : Instant) (disk : Disk) :
    (∃ failure project, (loadKnowledge store now).runOn disk = (.error failure, disk) ∧
        ((∃ problem, store.loadGraph disk = .error problem) ∨
          ∃ problem, store.loadKnowledge disk project now = .error problem)) ∨
      ∃ project knowledge, store.loadKnowledge disk project now = .ok knowledge ∧
        (loadKnowledge store now).runOn disk = (.ok knowledge, disk) := by
  rw [loadKnowledge, Run.runOn_bind]
  obtain ⟨problem, refused, runs⟩ | ⟨project, runs⟩ := projectName_cases store disk
  · rw [runs]
    exact .inl ⟨_, "", rfl, .inl ⟨problem, refused⟩⟩
  rw [runs]
  dsimp only
  rw [runOn_look]
  cases loaded : store.loadKnowledge disk project now with
  | error problem => exact .inl ⟨_, project, rfl, .inr ⟨problem, loaded⟩⟩
  | ok knowledge => exact .inr ⟨project, knowledge, loaded, rfl⟩

/-- Knowledge is saved as its document is written. -/
theorem runOn_saveKnowledge (store : Store) (knowledge : Knowledge) (now : Instant) (disk : Disk) :
    (saveKnowledge store knowledge now).runOn disk =
      (((writeDocument (Document.knowledge.path store) (stamped knowledge now).toJson now).runOn
        disk).1.mapError (.stopped · none),
      ((writeDocument (Document.knowledge.path store) (stamped knowledge now).toJson now).runOn
        disk).2) :=
  runOn_act ..

/-- A running command records a run as a store does, under the name of the project. -/
theorem exists_records (home : store.IsHome disk base) (kind : RunKind) (detail : String)
    (now : Instant) : ∃ project result after,
      (recordRun store kind detail now).runOn disk = (result, after) ∧
        store.Records base project kind detail now disk result after := by
  rw [recordRun, (isLook_loadKnowledge store now).runOn_bind]
  obtain ⟨failure, project, runs, refused⟩ | ⟨project, knowledge, loaded, runs⟩ :=
    loadKnowledge_cases store now disk
  · rw [runs]
    refine ⟨project, _, _, rfl, home.touches_refl _, .inr ⟨⟨failure, rfl⟩, ?_, rfl⟩⟩
    exact refused.imp id .inl
  · rw [runs]
    dsimp only
    rw [runOn_saveKnowledge]
    obtain ⟨result, after, written, writes⟩ := home.exists_writes .knowledge
      (stamped (knowledge.recordRun kind detail now) now).toJson now
    rw [written]
    refine ⟨project, _, _, rfl, writes.touches, ?_⟩
    obtain ⟨rfl, writable, holds⟩ | ⟨⟨fault, rfl⟩, blocked, same⟩ := writes.outcome
    · exact .inl ⟨rfl, writable, knowledge, loaded, holds⟩
    · refine .inr ⟨⟨_, rfl⟩, .inr (.inr fun canWrite => blocked ?_), same⟩
      exact (home.canWrite_iff .knowledge).mp canWrite

/-- Saving a document, recording a run and telling where the document is. -/
theorem exists_publishes (home : store.IsHome disk base) {save : DiskAction String} {path : String}
    {now : Instant} (saves : save.runOn disk =
      (((writeDocument (document.path store) value now).runOn disk).1.map fun _ => path,
        ((writeDocument (document.path store) value now).runOn disk).2))
    (kind : RunKind) (detail : String) :
    ∃ (result : Except Failure Unit) (after : Disk),
      Run.runOn (do
        let path ← act save none
        recordRun store kind detail now
        return line path) disk = (result.map fun _ => line path, after) ∧
      store.Publishes base document value kind detail now disk result after := by
  obtain ⟨written, between, runs, writes⟩ := home.exists_writes document value now
  rw [Run.runOn_bind, runOn_act, saves, runs]
  obtain ⟨rfl, -⟩ | ⟨⟨fault, rfl⟩, -⟩ := writes.outcome
  · obtain ⟨project, recorded, after, recording, records⟩ := exists_records
      (home.keeps writes.touches.keeps writes.touches.tree) kind detail now
    refine ⟨recorded, after, ?_, .written project writes records⟩
    dsimp only [Except.map, Except.mapError]
    rw [Run.runOn_bind, recording]
    cases recorded <;> rfl
  · exact ⟨.error (.stopped (.inputOutput fault) none), between, rfl, .blocked _ writes⟩

end Run

end CodeAtlas
