import CodeAtlas.Proofs.Command.Arguments
import CodeAtlas.Proofs.Command.Effect

/-!
# Commands that fail

A command that was to write a document for its user and failed has changed no document, or it has
written that document and could only not record the run.  Then something is wrong with the
documents that are read or written for this, and was before.
-/

namespace CodeAtlas

open Command Store

/-- Whether a command writes a document for its user. -/
def Command.IsPublishing : Command → Prop
  | .index .. | .extract .. | .plan .. => True
  | _ => False

/-- The disk that a command works on: indexing moves embedded learnings out of the graph first. -/
def Invocation.migrated (invocation : Invocation) (now : Instant) (disk : Disk) : Disk :=
  match invocation.command, Store.open disk invocation.root with
  | .index .., .ok store => ((store.migrateLegacyKnowledge now).runOn disk).2
  | _, _ => disk

namespace Store

variable {store : Store} {disk before written after : Disk} {base : List String}
  {document : Document} {value : Json} {text project detail : String} {kind : RunKind}
  {now : Instant}

/-- A project one of whose documents is read has a directory for its root. -/
theorem exists_isHome_of_readText (tree : disk.IsTree) (some : store.root ≠ "")
    (document : Document) (found : disk.readText (document.path store) = .ok text) :
    ∃ base, store.IsHome disk base := by
  have throughShelf {path name : String} {next : List String} (plain : Path.IsPlain path)
      (proper : Path.IsEntryName name) (located : disk.locate (Path.resolve path name) = .ok next) :
      ∃ reached, disk.locate path = .ok reached := by
    obtain ⟨reached, isLocated, -⟩ := (Disk.locate_resolve_eq_ok_iff plain proper).mp located
    exact ⟨reached, isLocated⟩
  obtain ⟨_, _, located, -⟩ :=
    Disk.read_eq_ok_iff_entryAt?.mp (Disk.readText_eq_ok_iff_read.mp found)
  obtain ⟨_, shelfLocated⟩ :=
    throughShelf (Shelf.isPlain_path store document.shelf) document.proper located
  obtain ⟨_, dataLocated⟩ : ∃ reached, disk.locate store.dataDirectory = .ok reached := by
    cases shelf : document.shelf with
    | data => exact ⟨_, shelf ▸ shelfLocated⟩
    | features =>
        rw [shelf] at shelfLocated
        exact throughShelf store.isPlain_dataDirectory (by decide) shelfLocated
    | plans =>
        rw [shelf] at shelfLocated
        exact throughShelf store.isPlain_dataDirectory (by decide) shelfLocated
  obtain ⟨base, isLocated, isDirectory⟩ :=
    Disk.exists_locate_of_resolve some isEntryName_dataDirectoryName dataLocated
  exact ⟨base, isLocated, isDirectory, tree⟩

theorem exists_isHome_of_requireGraph {graph : Graph} (tree : disk.IsTree)
    (some : store.root ≠ "") (found : store.requireGraph disk = .ok graph) :
    ∃ base, store.IsHome disk base := by
  obtain ⟨_ | _, loaded, isGraph⟩ := bind_eq_ok_iff.mp found
  · cases isGraph
  obtain ⟨_ | value, isValue, -⟩ := bind_eq_ok_iff.mp loaded
  · rw [loadGraph, isValue] at loaded
    cases loaded
  obtain ⟨text, isText, -⟩ := readValue_eq_ok_some_iff.mp isValue
  exact exists_isHome_of_readText tree some .graph isText

theorem exists_isHome_of_loadFeature {feature : Feature} {name : String} (tree : disk.IsTree)
    (some : store.root ≠ "") (found : store.loadFeature disk name = .ok feature) :
    ∃ base, store.IsHome disk base := by
  rw [loadFeature_eq] at found
  cases isText : disk.readText ((Document.feature name).path store) with
  | ok text => exact exists_isHome_of_readText tree some _ isText
  | error fault =>
      rw [isText] at found
      cases fault <;> cases found

section

variable (home : store.IsHome before base)

include home

/-- A document that could not be written leaves all documents as they were. -/
theorem IsHome.text_of_blocked {problem : Problem}
    (writes : Writes document base value before (.error problem) after) (other : Document) :
    other.text after base = other.text before base := by
  by_cases own : other = document
  · obtain ⟨success, -⟩ | ⟨-, -, same⟩ := writes.outcome
    · cases success
    · exact own ▸ same
  · exact writes.touches.text_of_ne home.tree home.named other own

/-- What keeps a run from being recorded did so before another document was written. -/
theorem IsHome.cannotRecord (touches : Touches document base before written)
    (notKnowledge : .knowledge ≠ document)
    (readable : .graph = document → ∃ graph, store.loadGraph written = .ok graph)
    (cannot : store.CannotRecord project written now) :
    store.CannotRecord project before now := by
  obtain ⟨problem, refused⟩ | refused | blocked := cannot
  · by_cases isGraph : .graph = document
    · obtain ⟨graph, loaded⟩ := readable isGraph
      cases loaded.symm.trans refused
    · exact .inl ⟨problem, (home.loadGraph_of_ne touches isGraph).symm.trans refused⟩
  · exact .inr (.inl (home.loadKnowledge_of_ne touches notKnowledge ▸ refused))
  · refine .inr (.inr fun canWrite => blocked ?_)
    have writable := (home.canWrite_iff .knowledge).mp canWrite
    exact ((home.touched touches).canWrite_iff .knowledge).mpr
      (touches.isWritable home.named writable)

end

end Store

variable {reader : SyntaxReader} {store : Store} {disk before after : Disk} {base : List String}
  {command : Command} {document : Document} {value : Json} {invocation : Invocation}
  {failure : Failure} {now : Instant}

/-- The graph that a command writes can be loaded. -/
theorem Command.Outputs.exists_loadGraph (outputs : command.Outputs reader now document value)
    (valid : now.IsValid) (home : store.IsHome disk base)
    (holds : document.text disk base = .ok value.pretty) (isGraph : .graph = document) :
    ∃ graph, store.loadGraph disk = .ok graph := by
  obtain ⟨graph, representable, rfl⟩ := outputs.exists_graph valid isGraph
  subst isGraph
  rw [← home.readText_eq] at holds
  exact ⟨graph, loadGraph_of_written representable holds⟩

/-- What a command that failed may have written: the document for its user, while the run cannot
be recorded. -/
structure LeavesUnrecorded (reader : SyntaxReader) (store : Store) (base : List String)
    (now : Instant) (command : Command) (before after : Disk) (document : Document)
    (value : Json) : Prop where
  outputs : command.Outputs reader now document value
  unrecorded : ∃ project, store.CannotRecord project before now
  holds : document.text after base = .ok value.pretty
  others : ∀ other, other ≠ document → other.text after base = other.text before base

/-- A command that fails leaves all documents as they were, or leaves what it wrote unrecorded. -/
theorem Effect.documents_of_error (home : store.IsHome before base) (valid : now.IsValid)
    (publishing : command.IsPublishing)
    (effect : Effect reader store base now before command (.error failure, after)) :
    (∀ document : Document, document.text after base = document.text before base) ∨
      ∃ document value,
        LeavesUnrecorded reader store base now command before after document value := by
  generalize ran : (Except.error failure, after) = ended at effect
  cases effect with
  | stopped =>
      cases ran
      exact .inl fun _ => rfl
  | told => cases ran
  | learned loaded changes => cases changes <;> exact publishing.elim
  | @published document value kind detail result last output outputs publishes =>
      obtain ⟨sameResult, rfl⟩ := Prod.ext_iff.mp ran
      cases publishes with
      | blocked problem writes => exact .inl (home.text_of_blocked writes)
      | written project writes records =>
          obtain ⟨rfl, -⟩ | ⟨-, cannot, sameKnowledge⟩ := records.outcome
          · cases sameResult
          have middle := home.touched writes.touches
          obtain ⟨-, -, holds⟩ | ⟨⟨_, impossible⟩, -⟩ := writes.outcome
          next =>
            refine .inr ⟨document, value, outputs, ⟨project, ?_⟩, ?_, fun other different => ?_⟩
            · exact home.cannotRecord writes.touches outputs.ne_knowledge
                (outputs.exists_loadGraph valid middle holds) cannot
            · exact (records.touches.text_of_ne middle.tree home.named document
                outputs.ne_knowledge.symm).trans holds
            · have sameWritten :=
                writes.touches.text_of_ne home.tree home.named other different
              by_cases isKnowledge : other = .knowledge
              · rw [isKnowledge] at sameWritten ⊢
                exact sameKnowledge.trans sameWritten
              · exact (records.touches.text_of_ne middle.tree home.named other
                  isKnowledge).trans sameWritten
          next => cases impossible

theorem Store.root_of_open {root : String} (opened : Store.open disk root = .ok store) :
    store.root = root := by
  rw [Store.open] at opened
  split at opened
  next =>
    obtain ⟨settings, -, same⟩ := bind_eq_ok_iff.mp opened
    cases same
    rfl
  next =>
    cases opened
    rfl
  next => cases opened

namespace Run

theorem index_stopped_or_effect (tree : disk.IsTree) (reader : SyntaxReader) (store : Store)
    (language : Option Language) (project : Option String) (now : Instant) :
    (∃ failure, (Run.index reader store language project now).runOn disk =
        (.error failure, ((store.migrateLegacyKnowledge now).runOn disk).2)) ∨
      ∃ base, store.IsHome ((store.migrateLegacyKnowledge now).runOn disk).2 base ∧
        Effect reader store base now ((store.migrateLegacyKnowledge now).runOn disk).2
          (.index language project) ((Run.index reader store language project now).runOn disk) := by
  rcases migrates : (store.migrateLegacyKnowledge now).runOn disk with
    ⟨problem | migration, migrated⟩
  · refine .inl ⟨.stopped problem (some .indexing), ?_⟩
    rw [Run.index, Run.runOn_bind, runOn_get]
    dsimp only
    rw [Run.runOn_bind, runOn_act, runOn_reindex tree, migrates]
    rfl
  obtain ⟨stillTree, -, -⟩ := migrated_of_success tree migrates
  cases found : CodeAtlas.index reader (store.indexOptions
    (project.getD (defaultName disk store.root)) language) store.root migrated now with
  | ok report =>
      obtain ⟨base, home⟩ := exists_isHome_of_index stillTree found
      exact .inr ⟨base, home, effect_index tree migrates home language project⟩
  | error problem =>
      refine .inl ⟨.stopped problem (some .indexing), ?_⟩
      rw [Run.index, Run.runOn_bind, runOn_get]
      dsimp only
      rw [Run.runOn_bind, runOn_act, runOn_reindex tree, migrates]
      dsimp only
      rw [reindexMigrated, DiskAction.runOn_bind, DiskAction.runOn_inspect, found]
      rfl

theorem extract_stopped_or_effect (tree : disk.IsTree) (nonempty : store.root ≠ "")
    (selection : Selection) (name : Option String) (snapshots : Bool) (now : Instant) :
    (∃ failure, (Run.extract store selection ⟨name, snapshots⟩ now).runOn disk =
        (.error failure, disk)) ∨
      ∃ base, store.IsHome disk base ∧
        Effect reader store base now disk (.extract selection name snapshots)
          ((Run.extract store selection ⟨name, snapshots⟩ now).runOn disk) := by
  cases found : store.requireGraph disk with
  | ok graph =>
      obtain ⟨base, home⟩ := exists_isHome_of_requireGraph tree nonempty found
      exact .inr ⟨base, home, effect_extract home selection name snapshots now⟩
  | error problem =>
      refine .inl ⟨.stopped problem (some .lookingForGraph), ?_⟩
      rw [Run.extract, Run.runOn_bind, requireGraph, runOn_look, found]
      rfl

theorem plan_stopped_or_effect (tree : disk.IsTree) (nonempty : store.root ≠ "")
    (registry : Option String) (feature target : String) (now : Instant) :
    (∃ failure, (Run.plan store registry feature target now).runOn disk = (.error failure, disk)) ∨
      ∃ base, store.IsHome disk base ∧ Effect reader store base now disk (.plan feature target)
        ((Run.plan store registry feature target now).runOn disk) := by
  cases found : store.loadFeature disk feature with
  | ok _ =>
      obtain ⟨base, home⟩ := exists_isHome_of_loadFeature tree nonempty found
      exact .inr ⟨base, home, effect_plan home registry feature target now⟩
  | error problem =>
      refine .inl ⟨.stopped problem (some (.lookingForFeature feature)), ?_⟩
      rw [Run.plan, Run.runOn_bind, runOn_look, found]
      rfl

end Run

/-- A command that writes a document for its user stops before it writes, or the project has a
directory for its root. -/
theorem stopped_or_effect (tree : disk.IsTree) (nonempty : invocation.root ≠ "")
    (publishing : invocation.command.IsPublishing) (reader : SyntaxReader) (now : Instant) :
    (∃ failure, (invocation.run reader now).runOn disk =
        (.error failure, invocation.migrated now disk)) ∨
      ∃ store base, store.root = invocation.root ∧
        store.IsHome (invocation.migrated now disk) base ∧
        Effect reader store base now (invocation.migrated now disk) invocation.command
          ((invocation.run reader now).runOn disk) := by
  obtain ⟨command, root, registry⟩ := invocation
  rw [Invocation.run, Run.runOn_bind, Run.openStore, Run.runOn_look, Invocation.migrated]
  cases opened : Store.open disk root with
  | error problem =>
      refine .inl ⟨.stopped problem (some (.openingProject root)), ?_⟩
      cases command <;> rfl
  | ok store =>
      have sameRoot := Store.root_of_open opened
      have storeNonempty : store.root ≠ "" := sameRoot ▸ nonempty
      dsimp only [Except.mapError]
      cases command with
      | index language project =>
          obtain stopped | ⟨base, home, effect⟩ :=
            Run.index_stopped_or_effect tree reader store language project now
          · exact .inl stopped
          · exact .inr ⟨store, base, sameRoot, home, effect⟩
      | extract selection name snapshots =>
          obtain stopped | ⟨base, home, effect⟩ :=
            Run.extract_stopped_or_effect tree storeNonempty selection name snapshots now
          · exact .inl stopped
          · exact .inr ⟨store, base, sameRoot, home, effect⟩
      | plan feature target =>
          obtain stopped | ⟨base, home, effect⟩ :=
            Run.plan_stopped_or_effect tree storeNonempty registry feature target now
          · exact .inl stopped
          · exact .inr ⟨store, base, sameRoot, home, effect⟩
      | find | impact | learn | refresh | stale | migrate | clear => exact publishing.elim

/-- A project with a source file and knowledge that cannot be read. -/
def brokenDisk : Disk :=
  ⟨.ofList [("demo", .directory), ("demo/.scion", .directory),
    ("demo/.scion/knowledge.json", .file "?".toUTF8 default),
    ("demo/a.py", .file "x = 1\n".toUTF8 default)], []⟩

/-- Arguments that ask for an index of the project, and what they ask for. -/
def indexArguments : List String := ["index", "--root", "/demo", "--language", "python"]

def indexInvocation : Invocation := ⟨.index (some .python) none, "/demo", none⟩

end CodeAtlas
