import CodeAtlas.Proofs.Knowledge.Timeless
import CodeAtlas.Proofs.Store.Migration

/-!
# Migration that is interrupted

A migration that stops after any of its steps is completed by migrating again: the learnings are in
the knowledge document before the graph document loses them, and adopting them twice is adopting
them once.
-/

namespace CodeAtlas

namespace Knowledge

variable {first second : Knowledge} {learnings others : List Learning}

theorem timeless_learning? (same : first.timeless = second.timeless) (path : String) :
    (first.learning? path).map Learning.timeless =
      (second.learning? path).map Learning.timeless := by
  have maps : first.learnings.map Learning.timeless = second.learnings.map Learning.timeless :=
    congrArg Prod.fst same
  rw [learning?, learning?, ← Keyed.get?_map, ← Keyed.get?_map, maps]

theorem timeless_find? (same : learnings.map Learning.timeless = others.map Learning.timeless)
    (path : String) :
    ((learnings.find? (·.modulePath == path)).map Learning.normalize).map Learning.timeless =
      ((others.find? (·.modulePath == path)).map Learning.normalize).map Learning.timeless := by
  have found (learnings : List Learning) :
      ((learnings.find? (·.modulePath == path)).map Learning.normalize).map Learning.timeless =
        ((learnings.map Learning.timeless).find? (·.modulePath == path)).map
          Learning.normalize := by
    rw [List.find?_map, Option.map_map, Option.map_map]
    rfl
  rw [found, found, same]

theorem timeless_eq_of_learning? (learnings : ∀ path,
      (first.learning? path).map Learning.timeless = (second.learning? path).map Learning.timeless)
    (decisions : first.decisions = second.decisions) (patterns : first.patterns = second.patterns) :
    first.timeless = second.timeless := by
  have maps : first.learnings.map Learning.timeless = second.learnings.map Learning.timeless := by
    refine Keyed.eq_of_get?_eq fun path => ?_
    rw [Keyed.get?_map, Keyed.get?_map]
    exact learnings path
  rw [timeless, timeless, maps, decisions, patterns]

/-- What is adopted does not depend on times either. -/
theorem timeless_performAll_adopt (same : first.timeless = second.timeless)
    (sameLearnings : learnings.map Learning.timeless = others.map Learning.timeless) :
    (first.performAll (learnings.map .adopt)).timeless =
      (second.performAll (others.map .adopt)).timeless := by
  obtain ⟨held, adopted⟩ := first.performAll_adopt_eq learnings
  obtain ⟨heldToo, adoptedToo⟩ := second.performAll_adopt_eq others
  refine timeless_eq_of_learning? (fun path => ?_) ?_ ?_
  · rw [learning?_performAll_adopt, learning?_performAll_adopt, Option.map_or, Option.map_or,
      timeless_learning? same, timeless_find? sameLearnings]
  · rw [adopted, adoptedToo]
    exact congrArg (·.2.1) same
  · rw [adopted, adoptedToo]
    exact congrArg (·.2.2) same

/-- Learnings whose modules all have one are not adopted. -/
theorem timeless_performAll_adopt_of_known
    (known : ∀ learning ∈ learnings, first.learning? learning.modulePath ≠ none) :
    (first.performAll (learnings.map .adopt)).timeless = first.timeless := by
  obtain ⟨held, adopted⟩ := first.performAll_adopt_eq learnings
  refine timeless_eq_of_learning? (fun path => ?_) (by rw [adopted]) (by rw [adopted])
  rw [learning?_performAll_adopt]
  cases found : first.learning? path with
  | some learning => rfl
  | none =>
      have absent : learnings.find? (·.modulePath == path) = none := by
        refine List.find?_eq_none.mpr fun learning member isPath => ?_
        rw [← eq_of_beq isPath] at found
        exact known learning member found
      rw [absent]
      rfl

theorem learning?_performAll_adopt_ne_none {learning : Learning} (member : learning ∈ learnings) :
    (first.performAll (learnings.map .adopt)).learning? learning.modulePath ≠ none := by
  have found : (learnings.find? (·.modulePath == learning.modulePath)).isSome = true :=
    List.find?_isSome.mpr ⟨learning, member, beq_self_eq_true _⟩
  intro absent
  rw [learning?_performAll_adopt, Option.or_eq_none_iff, Option.map_eq_none_iff] at absent
  rw [absent.2] at found
  cases found

theorem isFinite_of_timeless (same : first.timeless = second.timeless) (finite : first.IsFinite) :
    second.IsFinite := by
  intro learning member
  obtain ⟨path, isLearning⟩ := Keyed.mem_values_iff.mp member
  have found := timeless_learning? same path
  rw [learning?, learning?, isLearning] at found
  obtain ⟨other, isOther, sameLearning⟩ := Option.map_eq_some_iff.mp found
  have parts := congrArg Learning.confidence sameLearning
  have confidence : other.confidence = learning.confidence := parts
  exact confidence ▸ finite other (Keyed.mem_values_iff.mpr ⟨path, isOther⟩)

end Knowledge

namespace Store

variable {store : Store} {disk other : Disk} {first second : Instant}

/-! ## Reading at another time -/

/-- What is loaded of a document does not depend on when it is loaded, apart from times. -/
theorem timeless_loadKnowledge (same : other.readText store.knowledgePath =
      disk.readText store.knowledgePath) (project otherProject : String)
    (first second : Instant) :
    (store.loadKnowledge other otherProject second).map Knowledge.timeless =
      (store.loadKnowledge disk project first).map Knowledge.timeless := by
  cases document : disk.readText store.knowledgePath with
  | ok text =>
      rw [loadKnowledge_of_readText document, loadKnowledge_of_readText (same.trans document)]
      cases read : Json.ofText? text with
      | none => rfl
      | some value =>
          rw [Option.bind_some, Option.bind_some]
          obtain ⟨isOther, isOwn⟩ | ⟨knowledge, again, isOther, isOwn, parts⟩ :=
            eq_none_or_eq_some_of_map_eq (Knowledge.timeless_ofJson? second first value)
          · rw [isOther, isOwn]
          · rw [isOther, isOwn]
            exact congrArg Except.ok parts
  | error fault =>
      by_cases absent : fault = .missing
      · subst absent
        rw [loadKnowledge_of_missing document, loadKnowledge_of_missing (same.trans document)]
        rfl
      · rw [loadKnowledge_of_fault absent document,
          loadKnowledge_of_fault absent (same.trans document)]

theorem isFinite_of_loadKnowledge {project otherProject : String} {knowledge held : Knowledge}
    {now : Instant} (loaded : store.loadKnowledge disk project now = .ok knowledge)
    (loadedToo : store.loadKnowledge disk otherProject now = .ok held)
    (finite : knowledge.IsFinite) : held.IsFinite := by
  have same : (store.loadKnowledge disk otherProject now).map Knowledge.timeless =
      (store.loadKnowledge disk project now).map Knowledge.timeless :=
    timeless_loadKnowledge rfl project otherProject now now
  rw [loaded, loadedToo] at same
  exact Knowledge.isFinite_of_timeless (Except.ok.inj same).symm finite

theorem timeless_legacyLearning (first second : Instant) (key : Option String) (value : Json) :
    (legacyLearning first key value).map Learning.timeless =
      (legacyLearning second key value).map Learning.timeless := by
  rw [legacyLearning, legacyLearning]
  obtain ⟨isFirst, isSecond⟩ | ⟨learning, again, isFirst, isSecond, same⟩ :=
    eq_none_or_eq_some_of_map_eq (Learning.timeless_ofJson? first second value)
  · rw [isFirst, isSecond]
  · have parts := congrArg Learning.modulePath same
    have path : learning.modulePath = again.modulePath := parts
    rw [isFirst, isSecond]
    dsimp only
    rw [path]
    split
    · cases key with
      | none => rfl
      | some name =>
          exact congrArg (fun held : Learning => Except.ok { held with modulePath := name }) same
    · exact congrArg Except.ok same

/-- The embedded learnings of a document, whenever it is read. -/
theorem exists_legacyLearnings {legacy : Json} {learnings : List Learning}
    (areLearnings : legacyLearnings first legacy = .ok learnings) (second : Instant) :
    ∃ others, legacyLearnings second legacy = .ok others ∧
      others.map Learning.timeless = learnings.map Learning.timeless := by
  have entries {α : Type} {key : α → Option String} {value : α → Json} {items : List α}
      {learnings : List Learning} (success : items.mapM (fun item =>
        legacyLearning first (key item) (value item)) = .ok learnings) :
      ∃ others, items.mapM (fun item => legacyLearning second (key item) (value item)) =
          .ok others ∧ others.map Learning.timeless = learnings.map Learning.timeless := by
    induction mapM_eq_ok_iff.mp success with
    | nil => exact ⟨[], rfl, rfl⟩
    | @cons item learning rest others isFirst restFirst hypothesis =>
        obtain ⟨again, areAgain, sameRest⟩ := hypothesis (mapM_eq_ok_iff.mpr restFirst)
        have same := timeless_legacyLearning first second (key item) (value item)
        rw [isFirst] at same
        cases isSecond : legacyLearning second (key item) (value item) with
        | error fault => rw [isSecond] at same; cases same
        | ok new =>
            rw [isSecond] at same
            refine ⟨new :: again, ?_, ?_⟩
            · rw [List.mapM_cons, isSecond, areAgain]
              rfl
            · exact congrArg₂ List.cons (Except.ok.inj same).symm sameRest
  cases legacy with
  | object members => exact entries areLearnings
  | array items => exact entries areLearnings
  | null =>
      cases areLearnings
      exact ⟨[], rfl, rfl⟩
  | _ => cases areLearnings

/-! ## The steps of a migration -/

variable {reached : List String} {graph legacy : Json} {learnings : List Learning}
  {knowledge : Knowledge} {now again : Instant} {plan : MigrationPlan}

/-- The steps that migration takes. -/
def stepsOfMigration (store : Store) (disk : Disk) (now : Instant) : List DiskStep :=
  match store.planMigration disk now with
  | .ok (some plan) => store.migrationSteps plan now
  | _ => []

/-- After some of the steps of a migration both documents are as before, or the knowledge document
has been replaced, or both have been. -/
theorem IsReady.runAll_take_migrationSteps (ready : store.IsReady disk reached)
    (plan : MigrationPlan) (now : Instant) (count : Nat) :
    let crashed := (DiskStep.runAll now ((store.migrationSteps plan now).take count) disk).1
    store.IsReady crashed reached ∧
      (crashed.readText store.graphPath = disk.readText store.graphPath ∧
          crashed.readText store.knowledgePath = disk.readText store.knowledgePath ∨
        crashed.readText store.graphPath = disk.readText store.graphPath ∧
          crashed.readText store.knowledgePath =
            .ok (stamped plan.knowledge now).toJson.pretty ∨
        crashed.readText store.graphPath = .ok plan.graph.pretty ∧
          crashed.readText store.knowledgePath =
            .ok (stamped plan.knowledge now).toJson.pretty) := by
  intro crashed
  have length : (documentSteps store.knowledgePath
      (stamped plan.knowledge now).toJson.pretty).length = 3 := rfl
  by_cases early : count ≤ 3
  · obtain ⟨after, isAfter, afterReady, others, own⟩ := ready.exists_take_documentSteps
      mem_knowledge (stamped plan.knowledge now).toJson.pretty now count
    have isCrashed : crashed = after := by
      have taken : (store.migrationSteps plan now).take count = (documentSteps store.knowledgePath
          (stamped plan.knowledge now).toJson.pretty).take count :=
        List.take_append_of_le_length (length.symm ▸ early)
      exact (congrArg (fun steps => (DiskStep.runAll now steps disk).1) taken).trans
        (congrArg Prod.fst isAfter)
    rw [isCrashed]
    have graphText := others _ mem_graph (by decide)
    exact ⟨afterReady, own.imp (⟨graphText, ·⟩) fun written => .inl ⟨graphText, written⟩⟩
  · have adopted := ready.adoptedOn plan now
    obtain ⟨graphBefore, knowledgeText⟩ := ready.readText_adoptedOn plan now
    obtain ⟨after, isAfter, afterReady, others, own⟩ := adopted.exists_take_documentSteps
      mem_graph plan.graph.pretty now (count - 3)
    have isCrashed : crashed = after := by
      have taken : (store.migrationSteps plan now).take count = documentSteps store.knowledgePath
          (stamped plan.knowledge now).toJson.pretty ++
            (documentSteps store.graphPath plan.graph.pretty).take (count - 3) := by
        rw [migrationSteps, List.take_append, List.take_of_length_le (by omega), length]
      have first : DiskStep.runAll now (documentSteps store.knowledgePath
          (stamped plan.knowledge now).toJson.pretty) disk =
            (Store.adoptedOn disk reached plan now, none) :=
        ready.runAll_documentSteps mem_knowledge
      exact (congrArg (fun steps => (DiskStep.runAll now steps disk).1) taken).trans
        (congrArg Prod.fst ((DiskStep.runAll_append_of_complete first).trans isAfter))
    rw [isCrashed]
    have kept := (others _ mem_knowledge (by decide)).trans knowledgeText
    exact ⟨afterReady, .inr (own.imp (fun same => ⟨same.trans graphBefore, kept⟩) (⟨·, kept⟩))⟩

/-! ## Migrating again -/

theorem Embeds.exists_later (embeds : store.Embeds disk now graph legacy learnings knowledge)
    {crashed : Disk} (graphText : crashed.readText store.graphPath = disk.readText store.graphPath)
    {held : Knowledge} (loaded : store.loadKnowledge crashed (projectOf graph) again = .ok held) :
    ∃ others, store.Embeds crashed again graph legacy others held ∧
      others.map Learning.timeless = learnings.map Learning.timeless := by
  obtain ⟨others, areOthers, same⟩ := exists_legacyLearnings embeds.areLearnings again
  refine ⟨others, ⟨?_, embeds.isLegacy, areOthers, loaded⟩, same⟩
  obtain ⟨text, document, isGraph⟩ := embeds.exists_text
  exact readValue_eq_ok_some_iff.mpr ⟨text, graphText.trans document, isGraph⟩

/-- Migrating succeeds, and leaves a text as the graph document and knowledge that says something. -/
def MigratesTo (store : Store) (disk : Disk) (now : Instant) (text : String)
    (said : Keyed Learning × List Decision × Keyed String) : Prop :=
  ∃ report finished, (store.migrateLegacyKnowledge now).runOn disk = (.ok report, finished) ∧
    finished.readText store.graphPath = .ok text ∧
    ∀ project later,
      (store.loadKnowledge finished project later).map Knowledge.timeless = .ok said

namespace Embeds

variable (embeds : store.Embeds disk now graph legacy learnings knowledge)
  (finite : knowledge.IsFinite) {crashed : Disk}

include embeds finite

theorem migratesTo (ready : store.IsReady disk reached) (valid : now.IsValid) :
    store.MigratesTo disk now (graph.without legacyKey).pretty
      (knowledge.performAll (learnings.map .adopt)).timeless := by
  obtain ⟨graphText, knowledgeText⟩ :=
    ready.readText_migratedOn (planOf graph learnings knowledge now) now
  obtain ⟨representable, limited, planFinite⟩ := embeds.isSound_plan valid finite
  refine ⟨_, _, embeds.runOn ready, graphText, fun project later => ?_⟩
  rw [loadKnowledge_of_written knowledgeText valid representable limited planFinite]
  rfl

/-- Where neither document has changed, migrating again does the same. -/
theorem migratesTo_of_unchanged (ready : store.IsReady crashed reached) (valid : again.IsValid)
    (graphText : crashed.readText store.graphPath = disk.readText store.graphPath)
    (knowledgeText : crashed.readText store.knowledgePath = disk.readText store.knowledgePath) :
    store.MigratesTo crashed again (graph.without legacyKey).pretty
      (knowledge.performAll (learnings.map .adopt)).timeless := by
  have loaded := timeless_loadKnowledge knowledgeText (projectOf graph) (projectOf graph) now again
  rw [embeds.isKnowledge] at loaded
  cases isHeld : store.loadKnowledge crashed (projectOf graph) again with
  | error problem => rw [isHeld] at loaded; cases loaded
  | ok held =>
      rw [isHeld] at loaded
      have sameHeld : held.timeless = knowledge.timeless := Except.ok.inj loaded
      obtain ⟨others, embedsAgain, sameLearnings⟩ := embeds.exists_later graphText isHeld
      have migrates := embedsAgain.migratesTo (Knowledge.isFinite_of_timeless sameHeld.symm finite)
        ready valid
      rwa [Knowledge.timeless_performAll_adopt sameHeld sameLearnings] at migrates

/-- Where the knowledge document holds all that is embedded, nothing more is adopted. -/
theorem migratesTo_of_adopted (ready : store.IsReady crashed reached) (valid : now.IsValid)
    (validAgain : again.IsValid)
    (graphText : crashed.readText store.graphPath = disk.readText store.graphPath)
    (knowledgeText : crashed.readText store.knowledgePath =
      .ok (stamped (planOf graph learnings knowledge now).knowledge now).toJson.pretty) :
    store.MigratesTo crashed again (graph.without legacyKey).pretty
      (knowledge.performAll (learnings.map .adopt)).timeless := by
  obtain ⟨representable, limited, planFinite⟩ := embeds.isSound_plan valid finite
  have isHeld : store.loadKnowledge crashed (projectOf graph) again = .ok _ :=
    loadKnowledge_of_written knowledgeText valid representable limited planFinite
  obtain ⟨others, embedsAgain, sameLearnings⟩ := embeds.exists_later graphText isHeld
  have migrates := embedsAgain.migratesTo planFinite ready validAgain
  rw [Knowledge.timeless_performAll_adopt_of_known] at migrates
  · exact migrates
  · intro learning member
    have paths := congrArg (List.map Learning.modulePath) sameLearnings
    rw [List.map_map, List.map_map] at paths
    have same : others.map Learning.modulePath = learnings.map Learning.modulePath := paths
    have isPath : learning.modulePath ∈ others.map Learning.modulePath :=
      List.mem_map_of_mem member
    obtain ⟨original, isOriginal, samePath⟩ := List.mem_map.mp (same ▸ isPath)
    have known := knowledge.learning?_performAll_adopt_ne_none isOriginal
    rw [samePath] at known
    exact known

/-- Where both documents have been replaced, nothing is embedded. -/
theorem migratesTo_of_migrated (valid : now.IsValid)
    (graphText : crashed.readText store.graphPath = .ok (graph.without legacyKey).pretty)
    (knowledgeText : crashed.readText store.knowledgePath =
      .ok (stamped (planOf graph learnings knowledge now).knowledge now).toJson.pretty) :
    store.MigratesTo crashed again (graph.without legacyKey).pretty
      (knowledge.performAll (learnings.map .adopt)).timeless := by
  obtain ⟨representable, limited, planFinite⟩ := embeds.isSound_plan valid finite
  have nothing := embeds.embedsNothing graphText
  refine ⟨.none, crashed, runOn_migrateLegacyKnowledge_of_embedsNothing nothing again, graphText,
    fun project later => ?_⟩
  rw [loadKnowledge_of_written knowledgeText valid representable limited planFinite]
  rfl

end Embeds

/-- Where the knowledge document that has been written is refused, so is migrating again. -/
theorem Embeds.refused_of_adopted
    (embeds : store.Embeds disk now graph legacy learnings knowledge)
    (infinite : ¬knowledge.IsFinite) {crashed : Disk}
    (graphText : crashed.readText store.graphPath = disk.readText store.graphPath)
    (knowledgeText : crashed.readText store.knowledgePath =
      .ok (stamped (planOf graph learnings knowledge now).knowledge now).toJson.pretty) :
    (store.migrateLegacyKnowledge again).runOn crashed =
      (.error (refusal (planOf graph learnings knowledge now).knowledge now), crashed) := by
  have planInfinite : ¬(planOf graph learnings knowledge now).knowledge.IsFinite := by
    intro finite
    exact infinite (Knowledge.isFinite_of_performAll_adopt finite)
  obtain ⟨text, document, isText⟩ := embeds.exists_text
  have isGraph : readValue crashed store.graphPath = .ok (some graph) :=
    readValue_eq_ok_some_iff.mpr ⟨text, graphText.trans document, isText⟩
  obtain ⟨others, areOthers, -⟩ := exists_legacyLearnings embeds.areLearnings again
  have isLegacy := embeds.isLegacy
  rw [runOn_migrateLegacyKnowledge, Store.planMigration, isGraph]
  cases graph with
  | object members =>
      simp only [bind, Except.bind, isLegacy, areOthers, Except.mapError,
        loadKnowledge_of_written_eq_error knowledgeText planInfinite]
  | _ => cases isLegacy

/-- A migration that leads to a disk can stop after any of its steps: migrating again then
succeeds, and ends with the same graph document, and with the same learnings, decisions and
patterns apart from times. -/
def IsResumable (store : Store) (disk done : Disk) (now again : Instant) : Prop :=
  ∀ count, ∃ rerun finished, (store.migrateLegacyKnowledge again).runOn
      (DiskStep.runAll now ((store.stepsOfMigration disk now).take count) disk).1 =
        (.ok rerun, finished) ∧
    finished.readText store.graphPath = done.readText store.graphPath ∧
    ∀ project later, (store.loadKnowledge finished project later).map Knowledge.timeless =
      (store.loadKnowledge done project later).map Knowledge.timeless

theorem isResumable_of_embedsNothing (nothing : store.EmbedsNothing disk) :
    store.IsResumable disk disk now again := by
  intro count
  have steps : store.stepsOfMigration disk now = [] := by
    rw [stepsOfMigration, planMigration_of_embedsNothing nothing]
  rw [steps, List.take_nil]
  exact ⟨.none, disk, runOn_migrateLegacyKnowledge_of_embedsNothing nothing again, rfl,
    fun _ _ => rfl⟩

namespace Embeds

variable (embeds : store.Embeds disk now graph legacy learnings knowledge)
  (ready : store.IsReady disk reached)

include embeds

theorem stepsOfMigration_eq : store.stepsOfMigration disk now =
    store.migrationSteps (planOf graph learnings knowledge now) now := by
  rw [stepsOfMigration, embeds.planMigration]

include ready

theorem isResumable (finite : knowledge.IsFinite) (valid : now.IsValid)
    (validAgain : again.IsValid) : store.IsResumable disk
      (migratedOn disk reached (planOf graph learnings knowledge now) now) now again := by
  intro count
  obtain ⟨_, _, migrated, doneText, doneLoaded⟩ := embeds.migratesTo finite ready valid
  cases (embeds.runOn ready).symm.trans migrated
  have stops := ready.runAll_take_migrationSteps (planOf graph learnings knowledge now) now count
  rw [← embeds.stepsOfMigration_eq] at stops
  have reruns : store.MigratesTo
      (DiskStep.runAll now ((store.stepsOfMigration disk now).take count) disk).1 again
      (graph.without legacyKey).pretty (knowledge.performAll (learnings.map .adopt)).timeless := by
    obtain ⟨crashedReady, ⟨graphText, knowledgeText⟩ | ⟨graphText, knowledgeText⟩ |
      ⟨graphText, knowledgeText⟩⟩ := stops
    · exact embeds.migratesTo_of_unchanged finite crashedReady validAgain graphText knowledgeText
    · exact embeds.migratesTo_of_adopted finite crashedReady valid validAgain graphText
        knowledgeText
    · exact embeds.migratesTo_of_migrated finite valid graphText knowledgeText
  obtain ⟨rerun, finished, isRerun, text, finishedLoaded⟩ := reruns
  exact ⟨rerun, finished, isRerun, text.trans doneText.symm, fun project later =>
    (finishedLoaded project later).trans (doneLoaded project later).symm⟩

/-- The knowledge document has been replaced after three steps. -/
theorem refused_after_three (infinite : ¬knowledge.IsFinite) (again : Instant) :
    ((store.migrateLegacyKnowledge again).runOn
      (DiskStep.runAll now ((store.stepsOfMigration disk now).take 3) disk).1).1 =
        .error (refusal (planOf graph learnings knowledge now).knowledge now) := by
  have taken : (store.stepsOfMigration disk now).take 3 = documentSteps store.knowledgePath
      (stamped (planOf graph learnings knowledge now).knowledge now).toJson.pretty := by
    rw [embeds.stepsOfMigration_eq]
    rfl
  have stopped : DiskStep.runAll now ((store.stepsOfMigration disk now).take 3) disk =
      (adoptedOn disk reached (planOf graph learnings knowledge now) now, none) := by
    rw [taken]
    exact ready.runAll_documentSteps mem_knowledge
  obtain ⟨graphText, knowledgeText⟩ :=
    ready.readText_adoptedOn (planOf graph learnings knowledge now) now
  rw [stopped, embeds.refused_of_adopted infinite graphText knowledgeText]

end Embeds

/-- Whether a migration that succeeds can stop after any of its steps: exactly if nothing is
embedded or all confidences of the knowledge document are finite. -/
theorem isResumable_iff {report : Migration} {done : Disk} (valid : now.IsValid)
    (validAgain : again.IsValid)
    (success : (store.migrateLegacyKnowledge now).runOn disk = (.ok report, done)) :
    store.IsResumable disk done now again ↔
      store.EmbedsNothing disk ∨ ∀ project knowledge,
        store.loadKnowledge disk project now = .ok knowledge → knowledge.IsFinite := by
  obtain ⟨nothing, rfl⟩ | ⟨graph, legacy, learnings, knowledge, reached, embeds, ready, rfl⟩ :=
    embedsNothing_or_embeds_of_success success
  · exact iff_of_true (isResumable_of_embedsNothing nothing) (.inl nothing)
  · constructor
    · intro resumable
      obtain ⟨rerun, finished, isRerun, -⟩ := resumable 3
      refine .inr fun project other isOther => ?_
      by_contra infinite
      have refused := embeds.refused_after_three ready (fun finite =>
        infinite (isFinite_of_loadKnowledge embeds.isKnowledge isOther finite)) again
      rw [isRerun] at refused
      cases refused
    · rintro (nothing | finite)
      · have noPlan := planMigration_of_embedsNothing nothing now
        rw [embeds.planMigration] at noPlan
        cases noPlan
      · exact embeds.isResumable ready (finite _ _ embeds.isKnowledge) valid validAgain

/-- A migration that can stop after any of its steps. -/
theorem isResumable_embedded : ∃ report done,
    (demoStore.migrateLegacyKnowledge default).runOn (embeddingDisk []) = (.ok report, done) ∧
      demoStore.IsResumable (embeddingDisk []) done default default := by
  have valid : (default : Instant).IsValid := by decide +kernel
  have success : (demoStore.migrateLegacyKnowledge default).runOn (embeddingDisk []) =
      (.ok ⟨1, 1, 0⟩, ((demoStore.migrateLegacyKnowledge default).runOn (embeddingDisk [])).2) :=
    Prod.ext migrate_embeddingDisk rfl
  exact ⟨_, _, success, (isResumable_iff valid valid success).mpr (.inr isFinite_embeddingDisk)⟩

/-- A disk with that graph document and a confidence beyond single precision. -/
def overlargeDisk : Disk :=
  embeddingDisk [("demo/.scion/knowledge.json", .file (confidenceText "1e39").toUTF8 default)]

/-- A confidence beyond single precision is accepted, and migrating again is refused once the
knowledge document has been replaced. -/
theorem overlarge_not_resumable :
    ((demoStore.migrateLegacyKnowledge default).runOn overlargeDisk).1 = .ok ⟨1, 1, 0⟩ ∧
      ∃ saved, ((demoStore.migrateLegacyKnowledge default).runOn (DiskStep.runAll default
        ((demoStore.stepsOfMigration overlargeDisk default).take 3) overlargeDisk).1).1 =
          .error (refusal saved default) := by
  have reported : ((demoStore.migrateLegacyKnowledge default).runOn overlargeDisk).1 =
      .ok ⟨1, 1, 0⟩ :=
    toOption_eq_some_iff.mp (by decide +kernel)
  have evaluated : (demoStore.loadKnowledge overlargeDisk "demo" default).toOption.map
      (fun knowledge => knowledge.learnings.values.all (·.confidence.isFinite)) = some false := by
    decide +kernel
  obtain ⟨held, loaded, infinite⟩ := map_toOption_eq_some_iff.mp evaluated
  refine ⟨reported, ?_⟩
  obtain ⟨nothing, -⟩ | ⟨graph, legacy, learnings, knowledge, reached, embeds, ready, -⟩ :=
    embedsNothing_or_embeds_of_success (Prod.ext reported rfl)
  · rw [runOn_migrateLegacyKnowledge_of_embedsNothing nothing] at reported
    cases reported
  · have heldInfinite : ¬held.IsFinite := by simpa [Knowledge.IsFinite] using infinite
    exact ⟨_, embeds.refused_after_three ready (fun finite =>
      heldInfinite (isFinite_of_loadKnowledge embeds.isKnowledge loaded finite)) default⟩

end Store

end CodeAtlas
