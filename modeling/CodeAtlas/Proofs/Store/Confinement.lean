import CodeAtlas.Proofs.Store.RoundTrip

/-!
# What a save can reach

Whatever characters the names of features and targets hold, a document stands directly in its
directory.  Saving one replaces that document and nothing else, and leaves nothing beside it.  No
document stands where the new text of another one is written first.
-/

namespace CodeAtlas

/-! ## Entries of a directory -/

/-- A path that leads to one entry of a directory, wherever the directory is. -/
structure Path.IsChild (directory path : String) : Prop where
  parent : Path.parent path = directory
  leads : ∃ name, Path.IsEntryName name ∧ path = directory ++ "/" ++ name ∧
    ∀ (disk : Disk) reached, disk.locate path = .ok reached ↔
      ∃ outer, disk.locate directory = .ok outer ∧ disk.entryAt? outer = some .directory ∧
        reached = name :: outer

theorem Path.isChild_resolve {directory name : String} (plain : IsPlain directory)
    (proper : IsEntryName name) : IsChild directory (resolve directory name) where
  parent := parent_resolve plain proper
  leads := ⟨name, proper, resolve_entryName plain proper,
    fun _ _ => Disk.locate_resolve_eq_ok_iff plain proper⟩

namespace Store

/-! ## Saves -/

/-- What is saved. -/
inductive Save
  | graph (graph : Graph)
  | knowledge (knowledge : Knowledge)
  | feature (feature : Feature)
  | plan (plan : TransplantPlan)

namespace Save

/-- Saving it, without the path that is answered. -/
def action (store : Store) (now : Instant) : Save → DiskAction Unit
  | .graph saved => store.saveGraph saved now
  | .knowledge saved => store.saveKnowledge saved now
  | .feature saved => do
      let _ ← store.saveFeature saved now
  | .plan saved => do
      let _ ← store.savePlan saved now

/-- The path of its document. -/
def path (store : Store) : Save → String
  | .graph _ => store.graphPath
  | .knowledge _ => store.knowledgePath
  | .feature saved => store.featurePath saved.name
  | .plan saved => store.planPath saved.featureName saved.targetProject

/-- What its document holds afterwards. -/
def value (now : Instant) : Save → Json
  | .graph saved => saved.toJson
  | .knowledge saved => (stamped saved now).toJson
  | .feature saved => saved.toJson
  | .plan saved => saved.toJson

/-- A graph is saved where the document of the old one embeds nothing. -/
def IsUnembedded (store : Store) (disk : Disk) : Save → Prop
  | .graph _ => store.hasLegacyKnowledge disk = .ok false
  | _ => True

end Save

/-- The paths of the documents of a store. -/
inductive IsDocumentPath (store : Store) : String → Prop
  | graph : store.IsDocumentPath store.graphPath
  | knowledge : store.IsDocumentPath store.knowledgePath
  | feature (name : String) : store.IsDocumentPath (store.featurePath name)
  | plan (feature target : String) : store.IsDocumentPath (store.planPath feature target)

variable {store : Store} {disk after : Disk} {base : List String} {document other : Document}
  {value : Json} {path : String} {now : Instant}

namespace Document

theorem isChild_path (store : Store) (document : Document) :
    Path.IsChild (document.shelf.path store) (document.path store) :=
  Path.isChild_resolve (Shelf.isPlain_path store document.shelf) document.proper

theorem locate_path_eq_ok_iff {reached : List String} :
    disk.locate (document.path store) = .ok reached ↔
      ∃ outer, disk.locate (document.shelf.path store) = .ok outer ∧
        disk.entryAt? outer = some .directory ∧ reached = document.name :: outer :=
  Disk.locate_resolve_eq_ok_iff (Shelf.isPlain_path store document.shelf) document.proper

theorem locate_temporaryPath_eq_ok_iff {reached : List String} :
    disk.locate (temporaryPath (document.path store)) = .ok reached ↔
      ∃ outer, disk.locate (document.shelf.path store) = .ok outer ∧
        disk.entryAt? outer = some .directory ∧
        reached = Disk.temporary document.name :: outer := by
  have plain := Shelf.isPlain_path store document.shelf
  rw [path, Disk.temporaryPath_resolve plain document.proper]
  exact Disk.locate_resolve_eq_ok_iff plain (Disk.isEntryName_temporary document.proper)

/-- No document stands where another one is written first. -/
theorem locate_path_ne_locate_temporaryPath (store : Store) (document other : Document)
    (disk : Disk) {reached : List String}
    (located : disk.locate (document.path store) = .ok reached) :
    disk.locate (temporaryPath (other.path store)) ≠ .ok reached := by
  intro beside
  obtain ⟨_, -, -, rfl⟩ := locate_path_eq_ok_iff.mp located
  obtain ⟨_, -, -, same⟩ := locate_temporaryPath_eq_ok_iff.mp beside
  exact document.ne_temporary other (List.cons.inj same).1

theorem path_ne_temporaryPath (store : Store) (document other : Document) :
    document.path store ≠ temporaryPath (other.path store) := by
  intro same
  have ends : ".json".toList <:+ (document.path store).toList := by
    rw [path, Path.resolve_entryName (Shelf.isPlain_path store _) document.proper,
      String.toList_append]
    exact document.ending.trans (List.suffix_append _ _)
  rw [same, temporaryPath, String.toList_append] at ends
  obtain ⟨front, split⟩ := ends
  have last := congrArg List.getLast? split
  simp at last

end Document

theorem Save.isDocumentPath_path (store : Store) (save : Save) :
    store.IsDocumentPath (save.path store) := by
  cases save with
  | graph graph => exact .graph
  | knowledge knowledge => exact .knowledge
  | feature feature => exact .feature feature.name
  | plan plan => exact .plan plan.featureName plan.targetProject

theorem IsDocumentPath.exists_document (isDocument : store.IsDocumentPath path) :
    ∃ document : Document, document.path store = path := by
  cases isDocument with
  | graph => exact ⟨.graph, rfl⟩
  | knowledge => exact ⟨.knowledge, rfl⟩
  | feature name => exact ⟨.feature name, rfl⟩
  | plan feature target => exact ⟨.plan feature target, rfl⟩

/-! ## Saves that succeed -/

theorem hasLegacyKnowledge_of_embeds {graph legacy : Json} {learnings : List Learning}
    {knowledge : Knowledge} (embeds : store.Embeds disk now graph legacy learnings knowledge) :
    store.hasLegacyKnowledge disk = .ok true := by
  rw [hasLegacyKnowledge, embeds.isGraph]
  simp only [bind, Except.bind, Option.bind_some, embeds.isLegacy]
  rfl

/-- A graph that was saved where nothing was embedded was only written. -/
theorem embedsNothing_of_saveGraph {graph : Graph}
    (unembedded : store.hasLegacyKnowledge disk = .ok false)
    (success : (store.saveGraph graph now).runOn disk = (.ok (), after)) :
    store.EmbedsNothing disk := by
  obtain ⟨report, between, migrated, -⟩ := DiskAction.runOn_bind_eq_ok_iff.mp success
  obtain ⟨nothing, -⟩ | ⟨graph, legacy, learnings, knowledge, reached, embeds, -⟩ :=
    embedsNothing_or_embeds_of_success migrated
  · exact nothing
  · rw [hasLegacyKnowledge_of_embeds embeds] at unembedded
    cases unembedded

/-- What answers with a path has done its work. -/
theorem runOn_of_answered {work : DiskAction Unit} {answer : String}
    (success : ((work >>= fun _ => pure answer) >>= fun _ => pure ()).runOn disk =
      (.ok (), after)) :
    work.runOn disk = (.ok (), after) := by
  obtain ⟨_, _, answered, returned⟩ := DiskAction.runOn_bind_eq_ok_iff.mp success
  obtain ⟨_, _, worked, given⟩ := DiskAction.runOn_bind_eq_ok_iff.mp answered
  cases returned
  cases given
  exact worked

/-- A save that succeeds has written its document. -/
theorem Save.runOn_writeDocument {save : Save} (unembedded : save.IsUnembedded store disk)
    (success : (save.action store now).runOn disk = (.ok (), after)) :
    (writeDocument (save.path store) (save.value now) now).runOn disk = (.ok (), after) := by
  cases save with
  | graph graph =>
      have nothing := embedsNothing_of_saveGraph unembedded success
      exact (runOn_saveGraph_of_embedsNothing nothing graph now).symm.trans success
  | knowledge knowledge => exact success
  | feature feature => exact runOn_of_answered success
  | plan plan => exact runOn_of_answered success

/-! ## What a save changes -/

/-- One document of a disk was replaced: it is read as its new text, nothing stands beside it, and
all directories and all other files are as before. -/
structure ReplacesOnly (path text : String) (before after : Disk) : Prop where
  reads : after.readText path = .ok text
  noneBeside : after.holds (temporaryPath path) = false
  keeps : before.KeepsDirectories after
  others : ∃ reached beside, after.locate path = .ok reached ∧
    after.locate (temporaryPath path) = .ok beside ∧
    ∀ place, place ≠ Disk.location reached → place ≠ Disk.location beside →
      after.fileAt? place = before.fileAt? place

theorem replacesOnly_of_writeDocument
    (written : (writeDocument (document.path store) value now).runOn disk = (.ok (), after)) :
    ReplacesOnly (document.path store) value.pretty disk after := by
  have plain := Shelf.isPlain_path store document.shelf
  obtain ⟨made, outer, makes, free⟩ :=
    exists_makes_of_writeDocument plain document.proper (congrArg Prod.fst written)
  rw [Document.path, runOn_writeDocument plain document.proper makes free] at written
  cases written
  have keeps : made.KeepsDirectories
      (made.replaced outer document.name value.pretty.toUTF8 now) := free.keepsDirectories
  have located := keeps.locate makes.located
  have isDirectory := keeps.directory makes.isDirectory
  have leads := Document.locate_path_eq_ok_iff.mpr ⟨outer, located, isDirectory, rfl⟩
  have beside := Document.locate_temporaryPath_eq_ok_iff.mpr ⟨outer, located, isDirectory, rfl⟩
  refine ⟨?_, ?_, makes.grown.keepsDirectories.trans keeps, _, _, leads, beside, ?_⟩
  · exact Disk.readText_replaced plain document.proper makes.located makes.isDirectory free
  · rw [Disk.holds, Disk.entry, beside]
    simp only [bind, Except.bind, Disk.entryAt?_replaced_temporary]
  · intro place notDocument notBeside
    exact (Disk.fileAt?_replaced_of_ne notDocument notBeside).trans (makes.grown.fileAt?_eq place)

/-- Below a directory every other document is read as before. -/
theorem readText_other_of_writeDocument (home : store.IsHome disk base)
    (written : (writeDocument (document.path store) value now).runOn disk = (.ok (), after))
    (different : other.path store ≠ document.path store) :
    after.readText (other.path store) = disk.readText (other.path store) := by
  have writes := home.writes document value now
  rw [written] at writes
  exact home.readText_of_ne writes.touches other fun same => different (same ▸ rfl)

/-- Whatever the names of features and targets are, their documents stand directly in the
directories of features and of plans; a save that succeeds replaces the document that it is for and
no other file, and leaves nothing beside it; and no document stands where another one is written
first. -/
theorem saves_are_confined (store : Store) :
    (∀ name, Path.IsChild (Path.resolve store.dataDirectory "features") (store.featurePath name)) ∧
    (∀ feature target,
      Path.IsChild (Path.resolve store.dataDirectory "plans") (store.planPath feature target)) ∧
    (∀ (save : Save) now disk after, (save.action store now).runOn disk = (.ok (), after) →
      save.IsUnembedded store disk →
      ReplacesOnly (save.path store) (save.value now).pretty disk after ∧
        ∀ base, store.IsHome disk base → ∀ path, store.IsDocumentPath path →
          path ≠ save.path store → after.readText path = disk.readText path) ∧
    ∀ path other, store.IsDocumentPath path → store.IsDocumentPath other →
      path ≠ temporaryPath other ∧
        ∀ disk reached, Disk.locate disk path = .ok reached →
          Disk.locate disk (temporaryPath other) ≠ .ok reached := by
  refine ⟨fun name => ?_, fun feature target => ?_, ?_, ?_⟩
  · exact Document.isChild_path store (.feature name)
  · exact Document.isChild_path store (.plan feature target)
  · intro save now disk after success unembedded
    have written := Save.runOn_writeDocument unembedded success
    obtain ⟨document, isPath⟩ := (save.isDocumentPath_path store).exists_document
    rw [← isPath] at written ⊢
    refine ⟨replacesOnly_of_writeDocument written, ?_⟩
    intro base home path isDocument different
    obtain ⟨other, rfl⟩ := isDocument.exists_document
    exact readText_other_of_writeDocument home written different
  · intro path other isPath isOther
    obtain ⟨first, rfl⟩ := isPath.exists_document
    obtain ⟨second, rfl⟩ := isOther.exists_document
    exact ⟨first.path_ne_temporaryPath store second,
      fun disk _ => first.locate_path_ne_locate_temporaryPath store second disk⟩

/-- Saving a graph leaves a feature alone whose name tries to leave its directory, and a feature
whose name looks like the file beside the graph does not stand there. -/
theorem saves_are_confined_shelved : ∃ after,
    ((Save.graph (.new "demo" default)).action demoStore default).runOn shelvedDisk =
        (.ok (), after) ∧
      ReplacesOnly demoStore.graphPath (Graph.new "demo" default).toJson.pretty shelvedDisk after ∧
      after.readText (demoStore.featurePath "../graph") =
        shelvedDisk.readText (demoStore.featurePath "../graph") ∧
      demoStore.featurePath "../graph.json.tmp" ≠ temporaryPath demoStore.graphPath := by
  have nothing : demoStore.EmbedsNothing shelvedDisk :=
    embedsNothing_of_missing (by decide +kernel)
  have unembedded : demoStore.hasLegacyKnowledge shelvedDisk = .ok false :=
    toOption_eq_some_iff.mp (by decide +kernel)
  obtain ⟨after, written, -⟩ := exists_readText_of_canWrite .graph (canWrite_shelvedDisk .graph)
    (Graph.new "demo" default).toJson default
  have success := (runOn_saveGraph_of_embedsNothing nothing (.new "demo" default) default).trans
    written
  obtain ⟨-, -, saves, beside⟩ := saves_are_confined demoStore
  obtain ⟨replaces, others⟩ := saves (.graph (.new "demo" default)) default shelvedDisk after
    success unembedded
  refine ⟨after, success, replaces, ?_, (beside _ _ (.feature _) .graph).1⟩
  exact others ["demo"] isHome_shelvedDisk _ (.feature "../graph") (by decide +kernel)

end Store

end CodeAtlas
