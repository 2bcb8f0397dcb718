import CodeAtlas.Indexing
import CodeAtlas.Proofs.Store.Graph

/-!
# Recording runs

A run is recorded by loading the knowledge of a project and saving it with the run added.  Either
the knowledge document holds the run afterwards or it is as before; nothing else changes.
-/

namespace CodeAtlas

namespace Store

variable {store : Store} {disk before after : Disk} {base : List String} {knowledge : Knowledge}
  {project detail : String} {kind : RunKind} {now later : Instant}

/-- Record a run in the knowledge of a project of a given name. -/
def recordRunAs (store : Store) (project : String) (kind : RunKind) (detail : String)
    (now : Instant) : DiskAction Unit := do
  let knowledge ← DiskAction.inspect (store.loadKnowledge · project now)
  store.saveKnowledge (knowledge.recordRun kind detail now) now

/-- Why a run cannot be recorded: the documents that are read for it, or the one that is written. -/
def CannotRecord (store : Store) (project : String) (disk : Disk) (now : Instant) : Prop :=
  (∃ problem, store.loadGraph disk = .error problem) ∨
    (∃ problem, store.loadKnowledge disk project now = .error problem) ∨
    ¬CanWrite disk store.knowledgePath

/-- The knowledge document holds what was loaded, with a run added. -/
def HoldsRun (store : Store) (base : List String) (project : String) (kind : RunKind)
    (detail : String) (now : Instant) (before after : Disk) : Prop :=
  ∃ knowledge, store.loadKnowledge before project now = .ok knowledge ∧
    Document.knowledge.text after base =
      .ok (stamped (knowledge.recordRun kind detail now) now).toJson.pretty

/-- What comes of recording a run. -/
structure Records {ε : Type} (store : Store) (base : List String) (project : String)
    (kind : RunKind) (detail : String) (now : Instant) (before : Disk) (result : Except ε Unit)
    (after : Disk) : Prop where
  touches : Touches .knowledge base before after
  outcome :
    result = .ok () ∧ Document.knowledge.IsWritable before base ∧
        store.HoldsRun base project kind detail now before after ∨
      (∃ problem, result = .error problem) ∧ store.CannotRecord project before now ∧
        Document.knowledge.text after base = Document.knowledge.text before base

theorem Records.mapError {ε δ : Type} {result : Except ε Unit}
    (records : store.Records base project kind detail now before result after) (change : ε → δ) :
    store.Records base project kind detail now before (result.mapError change) after := by
  refine ⟨records.touches, ?_⟩
  obtain ⟨rfl, written⟩ | ⟨⟨problem, rfl⟩, refused⟩ := records.outcome
  · exact .inl ⟨rfl, written⟩
  · exact .inr ⟨⟨_, rfl⟩, refused⟩

/-- What comes of writing a document and then recording a run: the document could not be written, or
it was written and the run recorded or not. -/
inductive Publishes {ε : Type} (store : Store) (base : List String) (document : Document)
    (value : Json) (kind : RunKind) (detail : String) (now : Instant) (before : Disk) :
    Except ε Unit → Disk → Prop
  | blocked (problem : ε) {fault : DiskFault} {after : Disk}
      (writes : Writes document base value before (.error (.inputOutput fault)) after) :
      Publishes store base document value kind detail now before (.error problem) after
  | written {written after : Disk} {recorded : Except ε Unit} (project : String)
      (writes : Writes document base value before (.ok ()) written)
      (records : store.Records base project kind detail now written recorded after) :
      Publishes store base document value kind detail now before recorded after

theorem Publishes.keepsDirectories {ε : Type} {document : Document} {value : Json}
    {result : Except ε Unit}
    (publishes : store.Publishes base document value kind detail now before result after) :
    before.KeepsDirectories after := by
  cases publishes with
  | blocked problem writes => exact writes.touches.keeps
  | written project writes records => exact writes.touches.keeps.trans records.touches.keeps

/-- Recording a run adds it, or changes nothing. -/
theorem IsHome.exists_records (home : store.IsHome disk base) (project : String) (kind : RunKind)
    (detail : String) (now : Instant) :
    ∃ result after, (store.recordRunAs project kind detail now).runOn disk = (result, after) ∧
      store.Records base project kind detail now disk result after := by
  rw [recordRunAs, DiskAction.runOn_bind, DiskAction.runOn_inspect]
  cases loaded : store.loadKnowledge disk project now with
  | error problem =>
      exact ⟨_, _, rfl, home.touches_refl _,
        .inr ⟨⟨problem, rfl⟩, .inr (.inl ⟨problem, loaded⟩), rfl⟩⟩
  | ok knowledge =>
      obtain ⟨result, after, written, writes⟩ := home.exists_writes .knowledge
        (stamped (knowledge.recordRun kind detail now) now).toJson now
      refine ⟨result, after, written, writes.touches, ?_⟩
      obtain ⟨success, writable, document⟩ | ⟨⟨_, failure⟩, blocked, same⟩ := writes.outcome
      · exact .inl ⟨success, writable, knowledge, loaded, document⟩
      · refine .inr ⟨⟨_, failure⟩, .inr (.inr fun canWrite => blocked ?_), same⟩
        exact (home.canWrite_iff .knowledge).mp canWrite

/-- Knowledge in which a run was recorded is loaded with the run at the end of its history. -/
theorem loadKnowledge_of_holdsRun (home : store.IsHome after base) (valid : now.IsValid)
    (loaded : store.loadKnowledge before project now = .ok knowledge) (finite : knowledge.IsFinite)
    (document : Document.knowledge.text after base =
      .ok (stamped (knowledge.recordRun kind detail now) now).toJson.pretty)
    (name : String) (later : Instant) :
    store.loadKnowledge after name later =
      .ok (stamped (knowledge.recordRun kind detail now) now) := by
  obtain ⟨representable, limited⟩ := isRepresentable_of_loadKnowledge valid loaded
  have recorded : KnowledgeAction.IsRepresentable (.record ⟨kind, now, detail⟩) := valid
  rw [← home.readText_eq] at document
  exact loadKnowledge_of_written document valid (representable.perform recorded)
    (limited.perform (.record ⟨kind, now, detail⟩)) finite

end Store

end CodeAtlas
