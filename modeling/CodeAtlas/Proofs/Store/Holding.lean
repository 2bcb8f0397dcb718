import CodeAtlas.Proofs.Store.Persistence
import CodeAtlas.Proofs.Store.Record

/-!
# What a project holds

As long as nothing but commands changes its data directory, a project has no settings, a graph
document that embeds nothing, and a knowledge document that is loaded as it was saved.  Writing
documents keeps this, and so do edits elsewhere.
-/

namespace CodeAtlas

namespace Store

/-- The names that lead to the settings of a project from its root. -/
def settingsNames : List String := Shelf.data.names ++ ["config.toml"]

theorem isEntryName_settings : Path.IsEntryName "config.toml" := by decide

variable {store : Store} {disk before after : Disk} {base : List String} {root project : String}
  {learnings : Keyed Learning} {document : Document} {value : Json} {knowledge : Knowledge}
  {now saved : Instant}

/-- Writing a document leaves the settings as they are. -/
theorem Touches.settings_eq (touches : Touches document base before after) (tree : before.IsTree)
    (named : ∀ name ∈ base, Path.IsName name) :
    after.textBelow base settingsNames = before.textBelow base settingsNames := by
  have isNamed : ∀ name ∈ "config.toml" :: Shelf.data.place base, Path.IsName name :=
    List.forall_mem_cons.mpr ⟨isEntryName_settings.1, Shelf.named_place named .data⟩
  have notShelf (shelf : Shelf) : "config.toml" ∉ shelf.names := by cases shelf <;> decide
  apply touches.textBelow_eq tree named .data isEntryName_settings
  apply touches.entryAt?_eq isNamed notShelf
  · intro same
    have ending := document.ending
    rw [← (List.cons.inj same).1] at ending
    exact absurd ending (by decide)
  · intro same
    have ending : ".tmp".toList <:+ (Disk.temporary document.name).toList :=
      ⟨document.name.toList, by rw [Disk.temporary, String.toList_append]⟩
    rw [← (List.cons.inj same).1] at ending
    exact absurd ending (by decide)

/-! ## What the documents hold -/

/-- The graph document is missing or was written. -/
inductive HoldsGraph (base : List String) (disk : Disk) : Prop
  | missing (absent : Document.graph.text disk base = .error .missing)
  | written {graph : Graph} (representable : graph.IsRepresentable)
      (text : Document.graph.text disk base = .ok graph.toJson.pretty)

/-- The knowledge document is missing, or was written with the given learnings. -/
inductive HoldsLearnings (base : List String) (disk : Disk) : Keyed Learning → Prop
  | missing (absent : Document.knowledge.text disk base = .error .missing) :
      HoldsLearnings base disk .empty
  | written {knowledge : Knowledge} {saved : Instant} (valid : saved.IsValid)
      (representable : knowledge.IsRepresentable) (owned : knowledge.IsOwned)
      (limited : knowledge.IsLimited Settings.default.runHistory)
      (text : Document.knowledge.text disk base = .ok (stamped knowledge saved).toJson.pretty) :
      HoldsLearnings base disk knowledge.learnings

theorem HoldsGraph.congr (holds : HoldsGraph base before)
    (same : Document.graph.text after base = Document.graph.text before base) :
    HoldsGraph base after := by
  cases holds with
  | missing absent => exact .missing (same.trans absent)
  | written representable text => exact .written representable (same.trans text)

theorem HoldsLearnings.congr (holds : HoldsLearnings base before learnings)
    (same : Document.knowledge.text after base = Document.knowledge.text before base) :
    HoldsLearnings base after learnings := by
  cases holds with
  | missing absent => exact .missing (same.trans absent)
  | written valid representable owned limited text =>
      exact .written valid representable owned limited (same.trans text)

/-- Sound knowledge that was saved is held. -/
theorem IsSound.holdsLearnings (sound : store.IsSound knowledge)
    (settings : store.settings = .default) (valid : saved.IsValid)
    (text : Document.knowledge.text disk base = .ok (stamped knowledge saved).toJson.pretty) :
    HoldsLearnings base disk knowledge.learnings :=
  .written valid sound.representable sound.owned (settings ▸ sound.limited) text

/-- What a project holds: no settings, the graph, and knowledge with the given learnings. -/
structure Holds (base : List String) (disk : Disk) (learnings : Keyed Learning) : Prop where
  named : ∀ name ∈ base, Path.IsName name
  isDirectory : disk.entryAt? base = some .directory
  tree : disk.IsTree
  unset : disk.textBelow base settingsNames = .error .missing
  graph : HoldsGraph base disk
  learnings : HoldsLearnings base disk learnings

namespace Holds

section

variable (holds : Holds base disk learnings)

include holds

theorem isHome (located : disk.locate root = .ok base) : IsHome ⟨root, .default⟩ disk base :=
  ⟨located, holds.isDirectory, holds.tree⟩

/-- The project is opened with the settings that count where there are none. -/
theorem open_eq (located : disk.locate root = .ok base) :
    Store.open disk root = .ok ⟨root, .default⟩ := by
  have below : disk.LeadsBelow (Path.resolve (dataDirectoryOf root) "config.toml") base
      settingsNames :=
    (Disk.leadsBelow_resolve located isEntryName_dataDirectoryName).resolve
      (isPlain_dataDirectory ⟨root, .default⟩) isEntryName_settings
  rw [Store.open, below.readText_eq, holds.unset]

theorem embedsNothing (home : store.IsHome disk base) : store.EmbedsNothing disk := by
  have read : disk.readText store.graphPath = Document.graph.text disk base :=
    home.readText_eq .graph
  cases holds.graph with
  | missing absent => exact embedsNothing_of_missing (read.trans absent)
  | written representable text => exact embedsNothing_of_written representable (read.trans text)

/-- The knowledge that is loaded is sound and has the learnings that are held. -/
theorem loadKnowledge (home : store.IsHome disk base) (settings : store.settings = .default)
    (valid : now.IsValid) (project : String) :
    ∃ knowledge, store.loadKnowledge disk project now = .ok knowledge ∧
      store.IsSound knowledge ∧ knowledge.learnings = learnings := by
  have read : disk.readText store.knowledgePath = Document.knowledge.text disk base :=
    home.readText_eq .knowledge
  cases holds.learnings with
  | missing absent =>
      exact ⟨_, loadKnowledge_of_missing (read.trans absent),
        isSound_freshKnowledge valid project, rfl⟩
  | @written knowledge saved validSaved representable owned limited text =>
      have within : knowledge.IsLimited store.settings.runHistory := settings ▸ limited
      exact ⟨_, loadKnowledge_of_written (read.trans text) validSaved representable within
        owned.isFinite, ⟨isRepresentable_stamped representable validSaved, owned,
          within.runLimit, within.bounded⟩, rfl⟩

end

/-! ## Writing documents -/

section

variable {result : Except Problem Unit} (holds : Holds base before learnings)

include holds

theorem touched {changed : Keyed Learning} (touches : Touches document base before after)
    (graph : HoldsGraph base after) (learned : HoldsLearnings base after changed) :
    Holds base after changed where
  named := holds.named
  isDirectory := touches.keeps.directory holds.isDirectory
  tree := touches.tree
  unset := (touches.settings_eq holds.tree holds.named).trans holds.unset
  graph := graph
  learnings := learned

/-- Writing a document that is not the knowledge keeps the learnings, if only a graph is written
where the graph stands. -/
theorem of_writes (writes : Writes document base value before result after)
    (notKnowledge : .knowledge ≠ document) (isGraph : .graph = document →
      ∃ graph : Graph, graph.IsRepresentable ∧ value = graph.toJson) :
    Holds base after learnings := by
  have same (other : Document) (different : other ≠ document) :
      other.text after base = other.text before base :=
    writes.touches.text_of_ne holds.tree holds.named other different
  apply holds.touched writes.touches
  · by_cases own : .graph = document
    · obtain ⟨-, -, text⟩ | ⟨-, -, kept⟩ := writes.outcome
      · obtain ⟨graph, representable, rfl⟩ := isGraph own
        exact .written representable (own ▸ text)
      · exact holds.graph.congr (own ▸ kept)
    · exact holds.graph.congr (same .graph own)
  · exact holds.learnings.congr (same .knowledge notKnowledge)

theorem graph_of_knowledge (touches : Touches .knowledge base before after) :
    HoldsGraph base after :=
  holds.graph.congr (touches.text_of_ne holds.tree holds.named .graph (by decide))

/-- Knowledge that is written is held, and if it cannot be written the old one is. -/
theorem of_writes_knowledge (settings : store.settings = .default) (valid : now.IsValid)
    (sound : store.IsSound knowledge)
    (writes : Writes .knowledge base (stamped knowledge now).toJson before result after) :
    result = .ok () ∧ Holds base after knowledge.learnings ∨
      (∃ problem, result = .error problem) ∧ Holds base after learnings := by
  have graph := holds.graph_of_knowledge writes.touches
  obtain ⟨success, -, text⟩ | ⟨⟨_, failure⟩, -, same⟩ := writes.outcome
  · exact .inl ⟨success,
      holds.touched writes.touches graph (sound.holdsLearnings settings valid text)⟩
  · exact .inr ⟨⟨_, failure⟩,
      holds.touched writes.touches graph (holds.learnings.congr same)⟩

/-- Recording a run changes no learning. -/
theorem of_records {ε : Type} {kind : RunKind} {detail : String} {recorded : Except ε Unit}
    (home : store.IsHome before base) (settings : store.settings = .default) (valid : now.IsValid)
    (records : store.Records base project kind detail now before recorded after) :
    Holds base after learnings := by
  have graph := holds.graph_of_knowledge records.touches
  apply holds.touched records.touches graph
  obtain ⟨-, -, knowledge, loaded, text⟩ | ⟨-, -, same⟩ := records.outcome
  · obtain ⟨known, isKnown, sound, rfl⟩ := holds.loadKnowledge home settings valid project
    cases isKnown.symm.trans loaded
    have recorded : store.IsSound (knowledge.recordRun kind detail now) :=
      sound.perform (show KnowledgeAction.IsRepresentable (.record ⟨kind, now, detail⟩) from valid)
        nofun
    exact recorded.holdsLearnings settings valid text
  · exact holds.learnings.congr same

/-- Publishing a document changes no learning. -/
theorem of_publishes {ε : Type} {kind : RunKind} {detail : String} {recorded : Except ε Unit}
    (home : store.IsHome before base) (settings : store.settings = .default) (valid : now.IsValid)
    (publishes : store.Publishes base document value kind detail now before recorded after)
    (notKnowledge : .knowledge ≠ document) (isGraph : .graph = document →
      ∃ graph : Graph, graph.IsRepresentable ∧ value = graph.toJson) :
    Holds base after learnings := by
  cases publishes with
  | blocked problem writes => exact holds.of_writes writes notKnowledge isGraph
  | written project writes records =>
      exact (holds.of_writes writes notKnowledge isGraph).of_records
        (home.touched writes.touches) settings valid records

end

end Holds

/-! ## Where nothing was written yet, and edits elsewhere -/

/-- The data directory is empty or missing. -/
structure IsUnused (base : List String) (disk : Disk) : Prop where
  noFile : ∀ content modified, disk.entryAt? (dataPlace base) ≠ some (.file content modified)
  empty : ∀ name, disk.entryAt? (name :: dataPlace base) = none

/-- Any edit that leaves the root of a project a directory, and its data directory as it is with
everything in it. -/
structure EditsOutside (base : List String) (before after : Disk) : Prop where
  tree : after.IsTree
  isDirectory : after.entryAt? base = some .directory
  kept : ∀ inner,
    after.entryAt? (inner ++ dataPlace base) = before.entryAt? (inner ++ dataPlace base)

theorem IsUnused.textBelow_eq (unused : IsUnused base disk)
    (isDirectory : disk.entryAt? base = some .directory) {name : String}
    (proper : Path.IsEntryName name) :
    disk.textBelow base [dataDirectoryName, name] = .error .missing := by
  rw [Disk.textBelow_cons isEntryName_dataDirectoryName, isDirectory]
  dsimp only
  rw [Disk.textBelow_cons proper]
  have noFile := unused.noFile
  have absent := unused.empty name
  rw [dataPlace] at noFile absent
  cases found : disk.entryAt? (dataDirectoryName :: base) with
  | none => rfl
  | some entry =>
      cases entry with
      | file content modified => exact absurd found (noFile content modified)
      | directory =>
          dsimp only
          rw [Disk.textBelow, List.foldlM_nil]
          simp only [pure_bind, absent]
          rfl

/-- An unused project holds nothing. -/
theorem IsUnused.holds (unused : IsUnused base disk) (tree : disk.IsTree)
    (located : disk.locate root = .ok base) (isDirectory : disk.entryAt? base = some .directory) :
    Holds base disk .empty where
  named := Disk.locate_names located tree.working
  isDirectory := isDirectory
  tree := tree
  unset := unused.textBelow_eq isDirectory isEntryName_settings
  graph := .missing (unused.textBelow_eq isDirectory isEntryName_graph)
  learnings := .missing (unused.textBelow_eq isDirectory isEntryName_knowledge)

/-- What stands in the data directory is read as before. -/
theorem EditsOutside.textBelow_eq (edits : EditsOutside base before after) (tree : before.IsTree)
    (isDirectory : before.entryAt? base = some .directory)
    (named : ∀ name ∈ base, Path.IsName name) {names : List String}
    (proper : ∀ name ∈ names, Path.IsEntryName name) :
    after.textBelow base (dataDirectoryName :: names) =
      before.textBelow base (dataDirectoryName :: names) := by
  rw [Disk.textBelow_cons isEntryName_dataDirectoryName,
    Disk.textBelow_cons isEntryName_dataDirectoryName, isDirectory, edits.isDirectory]
  have namedData : ∀ name ∈ dataPlace base, Path.IsName name :=
    List.forall_mem_cons.mpr ⟨isEntryName_dataDirectoryName.1, named⟩
  exact tree.textBelow_eq namedData proper (fun front _ => .inl (edits.kept front.reverse))
    (edits.kept names.reverse)

/-- Edits elsewhere change nothing of what a project holds. -/
theorem Holds.edited (holds : Holds base before learnings)
    (edits : EditsOutside base before after) : Holds base after learnings := by
  have same {name : String} (proper : Path.IsEntryName name) :
      after.textBelow base [dataDirectoryName, name] =
        before.textBelow base [dataDirectoryName, name] :=
    edits.textBelow_eq holds.tree holds.isDirectory holds.named (by simpa using proper)
  exact ⟨holds.named, edits.isDirectory, edits.tree,
    (same isEntryName_settings).trans holds.unset, holds.graph.congr (same isEntryName_graph),
    holds.learnings.congr (same isEntryName_knowledge)⟩

end Store

end CodeAtlas
