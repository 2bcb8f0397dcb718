import CodeAtlas.Proofs.Store.Record

/-!
# Indexing a project anew

Once nothing is embedded, indexing a project anew writes the graph document and records the run.
The documents are in a directory that is skipped, so indexing again finds the same files.
-/

namespace CodeAtlas

/-- What is said of an index run. -/
def IndexReport.detail (report : IndexReport) : String :=
  toString report.graph.modules.size ++ " modules, " ++
    toString report.graph.edges.length ++ " edges, " ++
    toString report.failures.length ++ " failures"

theorem isRepresentable_of_index {reader : SyntaxReader} {options : IndexOptions}
    {root : String} {disk : Disk} {now : Instant} {report : IndexReport} (valid : now.IsValid)
    (success : index reader options root disk now = .ok report) : report.graph.IsRepresentable := by
  obtain ⟨language, files, -, -, rfl⟩ := index_eq_ok_iff.mp success
  exact graph_ofFiles ▸ Graph.isRepresentable_ofFiles valid

namespace Store

variable {reader : SyntaxReader} {store : Store} {disk migrated after : Disk}
  {base : List String} {project : String} {language : Option Language} {report found : IndexReport}
  {migration : Migration} {knowledge : Knowledge} {now later : Instant}

/-- The options that a project is indexed with. -/
def indexOptions (store : Store) (project : String) (language : Option Language) : IndexOptions :=
  .ofSettings project language store.settings.index

/-- Index a project anew in whose graph document nothing is embedded. -/
def reindexMigrated (reader : SyntaxReader) (store : Store) (project : String)
    (language : Option Language) (migration : Migration) (now : Instant) :
    DiskAction IndexReport := do
  let options := store.indexOptions project language
  let report ← DiskAction.inspect (index reader options store.root · now)
  writeDocument store.graphPath report.graph.toJson now
  store.recordRunAs project .index report.detail now
  return { report with migration }

/-- Indexing anew is migration and then indexing where nothing is embedded. -/
theorem runOn_reindex (tree : disk.IsTree) (reader : SyntaxReader) (store : Store)
    (project : String) (language : Option Language) (now : Instant) :
    (store.reindex reader project language now).runOn disk =
      match (store.migrateLegacyKnowledge now).runOn disk with
      | (.error problem, after) => (.error problem, after)
      | (.ok migration, migrated) =>
          (store.reindexMigrated reader project language migration now).runOn migrated := by
  rw [reindex, DiskAction.runOn_bind]
  rcases migrates : (store.migrateLegacyKnowledge now).runOn disk with ⟨_ | migration, migrated⟩
  · rfl
  obtain ⟨-, -, nothing⟩ := migrated_of_success tree migrates
  dsimp only
  rw [reindexMigrated, indexOptions, DiskAction.runOn_bind, DiskAction.runOn_bind,
    DiskAction.runOn_inspect]
  cases index reader (.ofSettings project language store.settings.index) store.root migrated
    now with
  | error problem => rfl
  | ok report =>
      dsimp only
      rw [DiskAction.runOn_bind, DiskAction.runOn_bind, runOn_saveGraph_of_embedsNothing nothing]
      rcases (writeDocument store.graphPath report.graph.toJson now).runOn migrated with
        ⟨_ | _, written⟩
      · rfl
      dsimp only
      rw [DiskAction.runOn_bind, DiskAction.runOn_bind, recordRunAs, DiskAction.runOn_bind,
        DiskAction.runOn_inspect]
      cases store.loadKnowledge written project now with
      | error problem => rfl
      | ok knowledge =>
          dsimp only
          rw [DiskAction.runOn_bind]
          rfl

/-- What is indexed has a directory for its root. -/
theorem exists_isHome_of_index {options : IndexOptions} (tree : disk.IsTree)
    (success : index reader options store.root disk now = .ok report) :
    ∃ base, store.IsHome disk base := by
  obtain ⟨language, files, -, walked, -⟩ := index_eq_ok_iff.mp success
  obtain ⟨base, located, isDirectory⟩ :=
    Disk.isDirectory_iff.mp (Disk.sourceFiles_eq_ok_iff.mp walked).1
  exact ⟨base, located, isDirectory, tree⟩

/-- Where nothing is embedded, indexing anew finds nothing, fails to write the graph document, or
writes it and then records the run or fails to. -/
theorem IsHome.reindexMigrated_cases (home : store.IsHome disk base) (reader : SyntaxReader)
    (project : String) (language : Option Language) (migration : Migration) (now : Instant) :
    (∃ problem,
        index reader (store.indexOptions project language) store.root disk now =
          .error problem ∧
        (store.reindexMigrated reader project language migration now).runOn disk =
          (.error problem, disk)) ∨
      ∃ report,
        index reader (store.indexOptions project language) store.root disk now = .ok report ∧
        ((∃ fault after, (store.reindexMigrated reader project language migration now).runOn disk =
            (.error (.inputOutput fault), after) ∧
          Writes .graph base report.graph.toJson disk (.error (.inputOutput fault)) after) ∨
        ∃ written, Writes .graph base report.graph.toJson disk (.ok ()) written ∧
          ∃ (recorded : Except Problem Unit) (after : Disk),
            (store.reindexMigrated reader project language migration now).runOn disk =
              (recorded.map fun _ => { report with migration }, after) ∧
            store.Records base project .index report.detail now written recorded after) := by
  rw [reindexMigrated, DiskAction.runOn_bind, DiskAction.runOn_inspect]
  cases found : index reader (store.indexOptions project language) store.root disk now with
  | error problem => exact .inl ⟨problem, rfl, rfl⟩
  | ok report =>
      refine .inr ⟨report, rfl, ?_⟩
      obtain ⟨result, written, writing, writes⟩ :=
        home.exists_writes .graph report.graph.toJson now
      change (writeDocument store.graphPath report.graph.toJson now).runOn disk = _ at writing
      dsimp only
      rw [DiskAction.runOn_bind, writing]
      obtain ⟨rfl, -⟩ | ⟨⟨fault, rfl⟩, -⟩ := writes.outcome
      · obtain ⟨recorded, after, recording, records⟩ := (home.keeps writes.touches.keeps
          writes.touches.tree).exists_records project .index report.detail now
        refine .inr ⟨written, writes, recorded, after, ?_, records⟩
        dsimp only
        rw [DiskAction.runOn_bind, recording]
        cases recorded <;> rfl
      · exact .inl ⟨fault, written, rfl, writes⟩

/-- What indexing anew leaves when it succeeds. -/
structure IsReindexed (store : Store) (base : List String) (project : String) (now : Instant)
    (report : IndexReport) (before after : Disk) : Prop where
  home : store.IsHome after base
  agrees : before.AgreesOutside after (dataPlace base)
  representable : report.graph.IsRepresentable
  graph : Document.graph.text after base = .ok report.graph.toJson.pretty
  knowledge : ∃ knowledge, store.loadKnowledge before project now = .ok knowledge ∧
    Document.knowledge.text after base =
      .ok (stamped (knowledge.recordRun .index report.detail now) now).toJson.pretty
  writable : Document.graph.IsWritable after base ∧ Document.knowledge.IsWritable after base

variable {written : Disk}

/-- Indexing anew that wrote the graph document and recorded the run has done all of that. -/
theorem isReindexed_of_writes (home : store.IsHome disk base) (valid : now.IsValid)
    (isReport : index reader (store.indexOptions project language) store.root disk now = .ok report)
    (writes : Writes .graph base report.graph.toJson disk (.ok ()) written)
    (records : store.Records base project .index report.detail now written
      (.ok () : Except Problem Unit) after) :
    store.IsReindexed base project now report disk after := by
  have middle := home.touched writes.touches
  obtain ⟨-, graphWritable, graphText⟩ | ⟨⟨_, failure⟩, -⟩ := writes.outcome
  next =>
    obtain ⟨-, knowledgeWritable, knowledge, loaded, document⟩ | ⟨⟨_, failure⟩, -⟩ :=
      records.outcome
    next =>
      have graphSame := records.touches.text_of_ne middle.tree home.named .graph (by decide)
      refine ⟨middle.touched records.touches, writes.touches.agrees.trans records.touches.agrees,
        isRepresentable_of_index valid isReport, graphSame.trans graphText,
        ⟨knowledge, ?_, document⟩, ?_, ?_⟩
      · exact (home.loadKnowledge_of_ne writes.touches (by decide)).symm.trans loaded
      · exact records.touches.isWritable home.named
          (writes.touches.isWritable home.named graphWritable)
      · exact records.touches.isWritable home.named knowledgeWritable
    next => cases failure
  next => cases failure

/-- Indexing anew that succeeds where nothing is embedded. -/
theorem isReindexed_of_success (tree : disk.IsTree) (valid : now.IsValid)
    (success : (store.reindexMigrated reader project language migration now).runOn disk =
      (.ok report, after)) :
    ∃ base found, store.IsHome disk base ∧
      index reader (store.indexOptions project language) store.root disk now = .ok found ∧
      report = { found with migration } ∧
      store.IsReindexed base project now found disk after := by
  have looks := success
  rw [reindexMigrated, DiskAction.runOn_bind_eq_ok_iff] at looks
  obtain ⟨_, _, isFound, -⟩ := looks
  obtain ⟨isIndexed, -⟩ := DiskAction.runOn_inspect_eq_ok_iff.mp isFound
  obtain ⟨base, home⟩ := exists_isHome_of_index tree isIndexed
  obtain ⟨problem, -, failure⟩ | ⟨found, isReport, ⟨_, _, failure, -⟩ |
    ⟨written, writes, recorded, last, isDone, records⟩⟩ :=
      home.reindexMigrated_cases reader project language migration now
  · cases failure.symm.trans success
  · cases failure.symm.trans success
  · have same := isDone.symm.trans success
    cases recorded with
    | error problem => cases same
    | ok done =>
        cases same
        exact ⟨base, found, home, isReport, rfl,
          isReindexed_of_writes home valid isReport writes records⟩

/-- Where nothing is embedded and both documents can be written, indexing anew succeeds if the
project can be indexed and its knowledge be loaded. -/
theorem IsHome.exists_isReindexed (home : store.IsHome disk base) (valid : now.IsValid)
    (isReport : index reader (store.indexOptions project language) store.root disk now = .ok report)
    (graphWritable : Document.graph.IsWritable disk base)
    (knowledgeWritable : Document.knowledge.IsWritable disk base)
    (loaded : store.loadKnowledge disk project now = .ok knowledge) (migration : Migration) :
    ∃ after, (store.reindexMigrated reader project language migration now).runOn disk =
        (.ok { report with migration }, after) ∧
      store.IsReindexed base project now report disk after := by
  obtain ⟨problem, failure, -⟩ | ⟨found, isFound, ⟨_, _, -, writes⟩ |
    ⟨written, writes, recorded, after, isDone, records⟩⟩ :=
      home.reindexMigrated_cases reader project language migration now
  · cases failure.symm.trans isReport
  · cases isFound.symm.trans isReport
    obtain ⟨failure, -⟩ | ⟨-, blocked, -⟩ := writes.outcome
    · cases failure
    · exact absurd graphWritable blocked
  · cases isFound.symm.trans isReport
    have middle := home.touched writes.touches
    cases recorded with
    | ok done => exact ⟨after, isDone, isReindexed_of_writes home valid isReport writes records⟩
    | error problem =>
        obtain ⟨failure, -⟩ | ⟨-, cannot, -⟩ := records.outcome
        · cases failure
        obtain ⟨-, -, graphText⟩ | ⟨⟨_, failure⟩, -⟩ := writes.outcome
        · rw [← middle.readText_eq] at graphText
          obtain ⟨_, refused⟩ | ⟨_, refused⟩ | blocked := cannot
          · cases refused.symm.trans
              (loadGraph_of_written (isRepresentable_of_index valid isReport) graphText)
          · rw [home.loadKnowledge_of_ne writes.touches (by decide), loaded] at refused
            cases refused
          · exact absurd ((middle.canWrite_iff .knowledge).mpr
              (writes.touches.isWritable home.named knowledgeWritable)) blocked
        · cases failure

/-- Indexing anew what has just been indexed anew succeeds and finds the same. -/
theorem IsReindexed.again (isReindexed : store.IsReindexed base project now found disk after)
    (home : store.IsHome disk base) (valid : now.IsValid) (laterValid : later.IsValid)
    (isReport : index reader (store.indexOptions project language) store.root disk now = .ok found)
    (finite : ∀ knowledge, store.loadKnowledge disk project now = .ok knowledge →
      knowledge.IsFinite) :
    ∃ again final, (store.reindex reader project language later).runOn after = (.ok again, final) ∧
      again.migration = .none ∧
      store.loadGraph final = .ok (some again.graph) ∧
      again.graph.sameStructure found.graph = true := by
  have graphText := isReindexed.graph
  rw [← isReindexed.home.readText_eq] at graphText
  obtain ⟨knowledge, loaded, document⟩ := isReindexed.knowledge
  obtain ⟨again, isAgain, same⟩ : ∃ again,
      index reader (store.indexOptions project language) store.root after later = .ok again ∧
        again.graph.sameStructure found.graph = true :=
    isReindexed.agrees.exists_index home.located home.isDirectory isEntryName_dataDirectoryName
      (by decide) home.tree.working isReport
  obtain ⟨final, success, finished⟩ := isReindexed.home.exists_isReindexed laterValid isAgain
    isReindexed.writable.1 isReindexed.writable.2
    (loadKnowledge_of_holdsRun isReindexed.home valid loaded (finite knowledge loaded) document
      project later) .none
  refine ⟨{ again with migration := .none }, final, ?_, rfl, ?_, same⟩
  · rw [runOn_reindex isReindexed.home.tree, runOn_migrateLegacyKnowledge_of_embedsNothing
      (embedsNothing_of_written isReindexed.representable graphText)]
    exact success
  · have finalText := finished.graph
    rw [← finished.home.readText_eq] at finalText
    exact loadGraph_of_written finished.representable finalText

/-- Indexing anew that succeeds saves the graph that it reports.  If nothing was embedded, what is
known stays, and the run is added to the latest ones.  Indexing the unchanged project again
succeeds, has nothing to migrate, and saves a graph of the same structure. -/
theorem reindex_twice (tree : disk.IsTree) (valid : now.IsValid) (laterValid : later.IsValid)
    (finite : ∀ project knowledge, store.loadKnowledge disk project now = .ok knowledge →
      knowledge.IsFinite)
    (success : (store.reindex reader project language now).runOn disk = (.ok report, after)) :
    store.loadGraph after = .ok (some report.graph) ∧
      (store.EmbedsNothing disk → ∃ knowledge,
        store.loadKnowledge disk project now = .ok knowledge ∧
        ∀ name instant, ∃ reloaded, store.loadKnowledge after name instant = .ok reloaded ∧
          reloaded.learnings = knowledge.learnings ∧ reloaded.decisions = knowledge.decisions ∧
          reloaded.patterns = knowledge.patterns ∧
          reloaded.runs = Knowledge.lastOf (max store.settings.runHistory 1)
            (knowledge.runs ++ [⟨.index, now, report.detail⟩])) ∧
      ∃ again final,
        (store.reindex reader project language later).runOn after = (.ok again, final) ∧
        again.migration = .none ∧ ∃ graph, store.loadGraph final = .ok (some graph) ∧
          graph.sameStructure report.graph = true := by
  rw [runOn_reindex tree] at success
  rcases migrates : (store.migrateLegacyKnowledge now).runOn disk with ⟨_ | migration, migrated⟩
  · rw [migrates] at success
    cases success
  rw [migrates] at success
  dsimp only at success
  obtain ⟨stillTree, -, -⟩ := migrated_of_success tree migrates
  obtain ⟨base, found, home, isReport, rfl, isReindexed⟩ :=
    isReindexed_of_success stillTree valid success
  have stillFinite {knowledge : Knowledge}
      (loaded : store.loadKnowledge migrated project now = .ok knowledge) : knowledge.IsFinite :=
    isFinite_of_migrated valid finite migrates loaded
  have graphText := isReindexed.graph
  rw [← isReindexed.home.readText_eq] at graphText
  refine ⟨loadGraph_of_written isReindexed.representable graphText, fun nothing => ?_, ?_⟩
  · rw [runOn_migrateLegacyKnowledge_of_embedsNothing nothing] at migrates
    cases migrates
    obtain ⟨knowledge, loaded, document⟩ := isReindexed.knowledge
    refine ⟨knowledge, loaded, fun name instant => ⟨_, loadKnowledge_of_holdsRun isReindexed.home
      valid loaded (stillFinite loaded) document name instant, rfl, rfl, rfl, ?_⟩⟩
    have limit := (isRepresentable_of_loadKnowledge valid loaded).2.runLimit
    exact congrArg (Knowledge.lastOf · (knowledge.runs ++ [_])) limit
  · obtain ⟨again, final, succeeds, none, saved, same⟩ :=
      isReindexed.again home valid laterValid isReport fun _ loaded => stillFinite loaded
    exact ⟨again, final, succeeds, none, again.graph, saved, same⟩

/-- A project with one source file that has not been indexed. -/
def sourceDisk : Disk :=
  ⟨.ofList [("demo", .directory), ("demo/a.py", .file "x = 1\n".toUTF8 default)], []⟩

/-- A project is indexed for the first time, and then again. -/
theorem reindex_source : ∃ report after,
    (demoStore.reindex .ofLexemes "demo" (some .python) default).runOn sourceDisk =
        (.ok report, after) ∧
      report.graph.modules.keys = ["a.py"] ∧
      demoStore.loadGraph after = .ok (some report.graph) ∧
      ∃ again final,
        (demoStore.reindex .ofLexemes "demo" (some .python) default).runOn after =
          (.ok again, final) := by
  have evaluated : ((demoStore.reindex .ofLexemes "demo" (some .python) default).runOn
      sourceDisk).1.toOption.map (·.graph.modules.keys) = some ["a.py"] := by
    decide +kernel
  obtain ⟨report, reported, modules⟩ := map_toOption_eq_some_iff.mp evaluated
  have valid : (default : Instant).IsValid := by decide +kernel
  have absent : sourceDisk.readText demoStore.knowledgePath = .error .missing := by
    decide +kernel
  have finite (project : String) (knowledge : Knowledge)
      (loaded : demoStore.loadKnowledge sourceDisk project default = .ok knowledge) :
      knowledge.IsFinite := by
    rw [loadKnowledge_of_missing absent] at loaded
    cases loaded
    exact nofun
  obtain ⟨saved, -, again, final, succeeds, -⟩ := reindex_twice (by decide +kernel) valid valid
    finite (Prod.ext reported rfl)
  exact ⟨report, _, Prod.ext reported rfl, modules, saved, again, final, succeeds⟩

end Store

end CodeAtlas
