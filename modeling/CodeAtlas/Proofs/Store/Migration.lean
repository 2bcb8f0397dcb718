import CodeAtlas.Proofs.Json.Storable
import CodeAtlas.Proofs.Store.Ready
import CodeAtlas.Proofs.Store.Reload

/-!
# Moving embedded learnings

Migration refuses whatever it refuses before the first step.  Otherwise the knowledge document
keeps all that it held and gets the first entry of each other module, the graph document loses
what it embedded and nothing else, and migrating again finds nothing to do.
-/

namespace CodeAtlas

/-! ## Adopting learnings -/

namespace Knowledge

variable {knowledge : Knowledge} {learning : Learning} {path : String} {learnings : List Learning}

theorem adoptLearning_eq (knowledge : Knowledge) (learning : Learning) :
    ∃ learnings, (knowledge.adoptLearning learning).1 = { knowledge with learnings } := by
  rw [adoptLearning]
  split <;> exact ⟨_, rfl⟩

theorem learning?_adoptLearning (knowledge : Knowledge) (learning : Learning) (path : String) :
    (knowledge.adoptLearning learning).1.learning? path =
      (knowledge.learning? path).or
        (if learning.modulePath = path then some learning.normalize else none) := by
  rw [adoptLearning]
  split
  next taken =>
    obtain ⟨old, isOld⟩ := Keyed.mem_keys_iff.mp (Keyed.contains_iff_mem_keys.mp taken)
    by_cases same : learning.modulePath = path
    · subst same
      rw [learning?, isOld, Option.some_or]
    · rw [if_neg same, Option.or_none]
  next free =>
    have absent : knowledge.learning? learning.modulePath = none :=
      Keyed.contains_eq_false_iff.mp (Bool.not_eq_true _ ▸ free)
    rw [learning?_putLearning]
    by_cases same : learning.modulePath = path
    · subst same
      rw [if_pos (show learning.modulePath = learning.normalize.modulePath from rfl), absent,
        if_pos rfl, Option.none_or]
    · have other : path ≠ learning.normalize.modulePath := fun equal => same equal.symm
      rw [if_neg other, if_neg same, Option.or_none]

/-- Adopted learnings change nothing else. -/
theorem performAll_adopt_eq (knowledge : Knowledge) (learnings : List Learning) :
    ∃ held, knowledge.performAll (learnings.map .adopt) = { knowledge with learnings := held } := by
  induction learnings generalizing knowledge with
  | nil => exact ⟨_, rfl⟩
  | cons learning rest hypothesis =>
      obtain ⟨held, same⟩ := knowledge.adoptLearning_eq learning
      obtain ⟨final, all⟩ := hypothesis (knowledge.adoptLearning learning).1
      rw [same] at all
      exact ⟨final, (congrArg (performAll · (rest.map .adopt)) same).trans all⟩

/-- A module keeps its learning, and else gets the first of those adopted that is its own. -/
theorem learning?_performAll_adopt (knowledge : Knowledge) (learnings : List Learning)
    (path : String) :
    (knowledge.performAll (learnings.map .adopt)).learning? path =
      (knowledge.learning? path).or
        ((learnings.find? (·.modulePath == path)).map Learning.normalize) := by
  induction learnings generalizing knowledge with
  | nil => exact (Option.or_none).symm
  | cons learning rest hypothesis =>
      have step := hypothesis (knowledge.adoptLearning learning).1
      rw [learning?_adoptLearning, Option.or_assoc] at step
      rw [List.find?_cons]
      refine step.trans (congrArg _ ?_)
      by_cases same : learning.modulePath = path
      · simp [same]
      · simp [same, beq_eq_false_iff_ne.mpr same]

theorem IsFinite.performAll_adopt (finite : knowledge.IsFinite) (learnings : List Learning) :
    (knowledge.performAll (learnings.map .adopt)).IsFinite := by
  intro learning member
  obtain ⟨path, isLearning⟩ := Keyed.mem_values_iff.mp member
  have found := knowledge.learning?_performAll_adopt learnings path
  rw [learning?, isLearning] at found
  cases old : knowledge.learning? path with
  | some kept =>
      rw [old, Option.some_or, Option.some.injEq] at found
      exact found ▸ finite kept (Keyed.mem_values_iff.mpr ⟨path, old⟩)
  | none =>
      rw [old, Option.none_or] at found
      obtain ⟨entry, -, rfl⟩ := Option.map_eq_some_iff.mp found.symm
      exact (Learning.isConfidence_normalConfidence _).isFinite

theorem isFinite_of_performAll_adopt
    (finite : (knowledge.performAll (learnings.map .adopt)).IsFinite) : knowledge.IsFinite := by
  intro learning member
  obtain ⟨path, isLearning⟩ := Keyed.mem_values_iff.mp member
  have kept := knowledge.learning?_performAll_adopt learnings path
  rw [learning?, learning?, isLearning, Option.some_or] at kept
  exact finite learning (Keyed.mem_values_iff.mpr ⟨path, kept⟩)

end Knowledge

namespace Store

variable {store : Store} {disk : Disk} {reached : List String} {now : Instant}
  {knowledge : Knowledge} {learnings : List Learning}

/-- Adopting and counting adopts. -/
theorem foldl_adoptCounting (knowledge : Knowledge) (report : Migration)
    (learnings : List Learning) :
    (learnings.foldl adoptCounting (knowledge, report)).1 =
        knowledge.performAll (learnings.map .adopt) ∧
      (learnings.foldl adoptCounting (knowledge, report)).2.found =
        report.found + learnings.length ∧
      (learnings.foldl adoptCounting (knowledge, report)).2.migrated +
          (learnings.foldl adoptCounting (knowledge, report)).2.keptExisting =
        report.migrated + report.keptExisting + learnings.length := by
  induction learnings generalizing knowledge report with
  | nil => exact ⟨rfl, rfl, rfl⟩
  | cons learning rest hypothesis =>
      have step : ∃ next, adoptCounting (knowledge, report) learning =
          ((knowledge.adoptLearning learning).1, next) ∧ next.found = report.found + 1 ∧
            next.migrated + next.keptExisting = report.migrated + report.keptExisting + 1 := by
        rw [adoptCounting]
        rcases knowledge.adoptLearning learning with ⟨adopted, taken⟩
        cases taken with
        | false => exact ⟨⟨report.found + 1, report.migrated, report.keptExisting + 1⟩, rfl, rfl, rfl⟩
        | true => exact ⟨⟨report.found + 1, report.migrated + 1, report.keptExisting⟩, rfl, rfl,
            Nat.add_right_comm ..⟩
      obtain ⟨next, isNext, found, sum⟩ := step
      obtain ⟨adopted, allFound, allSum⟩ := hypothesis (knowledge.adoptLearning learning).1 next
      rw [List.foldl_cons, isNext, List.length_cons]
      exact ⟨adopted, by omega, by omega⟩

/-! ## Entries -/

/-- The entries of an embedded value, those of a map with their keys. -/
def entriesOf : Json → List (Option String × Json)
  | .object members => members.map fun member => (some member.1, member.2)
  | .array items => items.map fun item => (none, item)
  | _ => []

/-- The learning of an entry: one that names no module takes the key of the entry. -/
def IsEntry (now : Instant) (entry : Option String × Json) (learning : Learning) : Prop :=
  ∃ decoded, Learning.ofJson? now entry.2 = some decoded ∧
    (decoded.modulePath ≠ "" ∧ learning = decoded ∨
      ∃ key, decoded.modulePath = "" ∧ entry.1 = some key ∧
        learning = { decoded with modulePath := key })

theorem legacyLearning_eq_ok_iff {key : Option String} {value : Json} {learning : Learning} :
    legacyLearning now key value = .ok learning ↔ IsEntry now (key, value) learning := by
  rw [legacyLearning, IsEntry]
  cases Learning.ofJson? now value with
  | none => simp
  | some decoded =>
      simp only [Option.some.injEq, exists_eq_left']
      by_cases unnamed : decoded.modulePath = ""
      · cases key <;> simp [unnamed, eq_comm]
      · simp [unnamed, eq_comm]

theorem forall₂_of_legacyLearnings {legacy : Json}
    (areLearnings : legacyLearnings now legacy = .ok learnings) :
    List.Forall₂ (IsEntry now) (entriesOf legacy) learnings := by
  cases legacy with
  | object members =>
      refine List.forall₂_map_left_iff.mpr ((mapM_eq_ok_iff.mp areLearnings).imp ?_)
      exact fun _ _ decoded => legacyLearning_eq_ok_iff.mp decoded
  | array items =>
      refine List.forall₂_map_left_iff.mpr ((mapM_eq_ok_iff.mp areLearnings).imp ?_)
      exact fun _ _ decoded => legacyLearning_eq_ok_iff.mp decoded
  | null =>
      cases areLearnings
      exact .nil
  | _ => cases areLearnings

theorem isRead_of_mem_entriesOf {legacy : Json} (read : legacy.IsRead) {entry : Option String × Json}
    (member : entry ∈ entriesOf legacy) : entry.2.IsRead := by
  cases read with
  | object kept =>
      obtain ⟨before, isMember, rfl⟩ := List.mem_map.mp member
      exact kept before isMember
  | array kept =>
      obtain ⟨before, isMember, rfl⟩ := List.mem_map.mp member
      exact kept before isMember
  | _ => cases member

theorem isRepresentable_of_legacyLearnings {legacy : Json} (read : legacy.IsRead)
    (valid : now.IsValid) (areLearnings : legacyLearnings now legacy = .ok learnings) :
    ∀ learning ∈ learnings, learning.IsRepresentable := by
  intro learning member
  obtain ⟨entry, isEntry, decoded, isDecoded, named⟩ :=
    exists_mem_of_forall₂ (forall₂_of_legacyLearnings areLearnings) member
  have representable := Learning.isRepresentable_of_ofJson?
    (isRead_of_mem_entriesOf read isEntry) valid isDecoded
  obtain ⟨-, rfl⟩ | ⟨key, -, -, rfl⟩ := named
  · exact representable
  · exact ⟨representable.confidence, representable.version, representable.sourceRef,
      representable.learnedAt, representable.updatedAt⟩

/-! ## What migration does -/

/-- The name that a graph document gives its project. -/
def projectOf (graph : Json) : String :=
  (((graph.without legacyKey).member? "project").bind Json.asString?).getD ""

/-- The learnings that a graph document embeds, and the knowledge that adopts them. -/
structure Embeds (store : Store) (disk : Disk) (now : Instant) (graph legacy : Json)
    (learnings : List Learning) (knowledge : Knowledge) : Prop where
  isGraph : readValue disk store.graphPath = .ok (some graph)
  isLegacy : graph.member? legacyKey = some legacy
  areLearnings : legacyLearnings now legacy = .ok learnings
  isKnowledge : store.loadKnowledge disk (projectOf graph) now = .ok knowledge

/-- There is no graph document, or it embeds nothing. -/
def EmbedsNothing (store : Store) (disk : Disk) : Prop :=
  readValue disk store.graphPath = .ok none ∨
    ∃ members, readValue disk store.graphPath = .ok (some (.object members)) ∧
      (Json.object members).member? legacyKey = none

/-- The record of a migration. -/
def migrationRun (report : Migration) (now : Instant) : RunRecord :=
  ⟨.migrate, now, "migrated " ++ toString report.migrated ++ " of " ++ toString report.found ++
    " embedded learnings"⟩

/-- What migration writes of learnings that are embedded. -/
def planOf (graph : Json) (learnings : List Learning) (knowledge : Knowledge) (now : Instant) :
    MigrationPlan where
  report := (adoptAll knowledge learnings).2
  knowledge := (knowledge.performAll (learnings.map .adopt)).recordRun .migrate
    (migrationRun (adoptAll knowledge learnings).2 now).detail now
  graph := graph.without legacyKey

theorem Embeds.planMigration {graph legacy : Json}
    (embeds : store.Embeds disk now graph legacy learnings knowledge) :
    store.planMigration disk now = .ok (some (planOf graph learnings knowledge now)) := by
  have isLegacy := embeds.isLegacy
  have isKnowledge := embeds.isKnowledge
  have adopted := (foldl_adoptCounting knowledge .none learnings).1
  rw [Store.planMigration, embeds.isGraph]
  cases graph with
  | object members =>
      rw [projectOf] at isKnowledge
      simp only [bind, Except.bind, isLegacy, embeds.areLearnings, Except.mapError, isKnowledge,
        planOf, ← adopted]
      rfl
  | _ => cases isLegacy

/-- Migration is refused, has nothing to do, or has a plan. -/
theorem planMigration_cases (store : Store) (disk : Disk) (now : Instant) :
    (∃ problem, store.planMigration disk now = .error problem) ∨ store.EmbedsNothing disk ∨
      ∃ graph legacy learnings knowledge,
        store.Embeds disk now graph legacy learnings knowledge := by
  rw [planMigration]
  cases isGraph : readValue disk store.graphPath with
  | error problem => exact .inl ⟨problem, rfl⟩
  | ok found =>
      cases found with
      | none => exact .inr (.inl (.inl isGraph))
      | some graph =>
          cases graph with
          | object members =>
              cases isLegacy : (Json.object members).member? legacyKey with
              | none => exact .inr (.inl (.inr ⟨members, isGraph, isLegacy⟩))
              | some legacy =>
                  simp only [bind, Except.bind, isLegacy]
                  cases areLearnings : legacyLearnings now legacy with
                  | error fault => exact .inl ⟨_, rfl⟩
                  | ok learnings =>
                      simp only [Except.mapError]
                      cases isKnowledge : store.loadKnowledge disk
                          (projectOf (.object members)) now with
                      | error problem =>
                          rw [projectOf] at isKnowledge
                          exact .inl ⟨problem, by simp only [isKnowledge]⟩
                      | ok knowledge =>
                          exact .inr (.inr ⟨.object members, legacy, learnings, knowledge,
                            isGraph, isLegacy, areLearnings, isKnowledge⟩)
          | _ => exact .inl ⟨_, rfl⟩

theorem planMigration_of_embedsNothing (nothing : store.EmbedsNothing disk) (now : Instant) :
    store.planMigration disk now = .ok none := by
  rw [planMigration]
  obtain absent | ⟨members, isGraph, unembedded⟩ := nothing
  · rw [absent]
    rfl
  · rw [isGraph]
    simp only [bind, Except.bind, unembedded]
    rfl

/-- What migration comes to, by its plan. -/
theorem runOn_migrateLegacyKnowledge (store : Store) (disk : Disk) (now : Instant) :
    (store.migrateLegacyKnowledge now).runOn disk =
      match store.planMigration disk now with
      | .error problem => (.error problem, disk)
      | .ok none => (.ok .none, disk)
      | .ok (some plan) =>
          (match (DiskStep.runAll now (store.migrationSteps plan now) disk).2 with
            | none => .ok plan.report
            | some fault => .error (.inputOutput fault),
          (DiskStep.runAll now (store.migrationSteps plan now) disk).1) := by
  rw [migrateLegacyKnowledge, DiskAction.runOn_bind, DiskAction.runOn_inspect]
  cases store.planMigration disk now with
  | error problem => rfl
  | ok found =>
      cases found with
      | none => rfl
      | some plan =>
          dsimp only
          rw [DiskAction.runOn_bind, DiskAction.runOn_perform]
          cases (DiskStep.runAll now (store.migrationSteps plan now) disk).2 <;> rfl

/-- Migrating where nothing is embedded changes nothing. -/
theorem runOn_migrateLegacyKnowledge_of_embedsNothing (nothing : store.EmbedsNothing disk)
    (now : Instant) : (store.migrateLegacyKnowledge now).runOn disk = (.ok .none, disk) := by
  rw [runOn_migrateLegacyKnowledge, planMigration_of_embedsNothing nothing]

/-! ## After migration -/

variable {plan : MigrationPlan}

theorem mem_knowledge : "knowledge.json" ∈ documentNames := List.mem_cons_self

theorem mem_graph : "graph.json" ∈ documentNames := List.mem_cons_of_mem _ List.mem_cons_self

/-- The disk on which the knowledge document has been replaced. -/
def adoptedOn (disk : Disk) (reached : List String) (plan : MigrationPlan) (now : Instant) : Disk :=
  savedOn disk reached plan.knowledge now

/-- The disk on which both documents have been replaced. -/
def migratedOn (disk : Disk) (reached : List String) (plan : MigrationPlan) (now : Instant) :
    Disk :=
  (adoptedOn disk reached plan now).replaced reached "graph.json" plan.graph.pretty.toUTF8 now

theorem IsReady.adoptedOn (ready : store.IsReady disk reached) (plan : MigrationPlan)
    (now : Instant) : store.IsReady (adoptedOn disk reached plan now) reached :=
  ready.replaced mem_knowledge _ now

theorem IsReady.runAll_migrationSteps (ready : store.IsReady disk reached) (plan : MigrationPlan)
    (now : Instant) : DiskStep.runAll now (store.migrationSteps plan now) disk =
      (Store.migratedOn disk reached plan now, none) := by
  have first : DiskStep.runAll now (documentSteps store.knowledgePath
      (stamped plan.knowledge now).toJson.pretty) disk =
        (Store.adoptedOn disk reached plan now, none) :=
    ready.runAll_documentSteps mem_knowledge
  exact (DiskStep.runAll_append_of_complete first).trans
    ((ready.adoptedOn plan now).runAll_documentSteps mem_graph)

theorem IsReady.readText_adoptedOn (ready : store.IsReady disk reached) (plan : MigrationPlan)
    (now : Instant) :
    (Store.adoptedOn disk reached plan now).readText store.graphPath =
        disk.readText store.graphPath ∧
      (Store.adoptedOn disk reached plan now).readText store.knowledgePath =
        .ok (stamped plan.knowledge now).toJson.pretty :=
  ⟨ready.readText_replaced_of_ne mem_knowledge mem_graph (by decide),
    ready.readText_replaced mem_knowledge⟩

theorem IsReady.readText_migratedOn (ready : store.IsReady disk reached) (plan : MigrationPlan)
    (now : Instant) :
    (Store.migratedOn disk reached plan now).readText store.graphPath = .ok plan.graph.pretty ∧
      (Store.migratedOn disk reached plan now).readText store.knowledgePath =
        .ok (stamped plan.knowledge now).toJson.pretty := by
  have adopted := ready.adoptedOn plan now
  refine ⟨adopted.readText_replaced mem_graph, ?_⟩
  exact (adopted.readText_replaced_of_ne mem_graph mem_knowledge (by decide)).trans
    (ready.readText_adoptedOn plan now).2

theorem readValue_eq_ok_some_iff {path : String} {value : Json} :
    readValue disk path = .ok (some value) ↔
      ∃ text, disk.readText path = .ok text ∧ Json.ofText text = some value := by
  rw [readValue, readDocument]
  cases disk.readText path with
  | error fault => cases fault <;> simp [bind, Except.bind, pure, Except.pure]
  | ok text =>
      cases found : Json.ofText text <;>
        simp [bind, Except.bind, pure, Except.pure, throw, throwThe, MonadExceptOf.throw, found]

/-- A graph document that is written without the key embeds nothing. -/
theorem embedsNothing_of_readText {members : List (String × Json)}
    (document : disk.readText store.graphPath = .ok (Json.object members).pretty)
    (storable : (Json.object members).IsStorable Json.depthLimit)
    (distinct : (members.map (·.1)).Nodup)
    (absent : (Json.object members).member? legacyKey = none) : store.EmbedsNothing disk := by
  obtain ⟨others, carried, -, lookup⟩ := Json.carries_merged_reread.object distinct
  refine .inr ⟨others, ?_, ?_⟩
  · rw [readValue_eq_ok_some_iff]
    exact ⟨_, document, by rw [storable.ofText_pretty, carried]⟩
  · rw [Json.member?, lookup]
    rw [Json.member?] at absent
    rw [absent]
    rfl

/-! ## What is moved -/

variable {graph legacy : Json}

namespace Embeds

variable (embeds : store.Embeds disk now graph legacy learnings knowledge)

include embeds

theorem exists_text : ∃ text, disk.readText store.graphPath = .ok text ∧
    Json.ofText text = some graph :=
  readValue_eq_ok_some_iff.mp embeds.isGraph

theorem isStorable : graph.IsStorable Json.depthLimit := by
  obtain ⟨text, -, isGraph⟩ := embeds.exists_text
  exact Json.isStorable_of_ofText isGraph

/-- The members of the graph document stand in the order of distinct names, and what it embeds is
such a value too. -/
theorem exists_members : ∃ (map : Keyed Json) (before : Json), graph = .object map.entries ∧
    legacy = before.merged ∧ (legacyKey, legacy) ∈ map.entries := by
  obtain ⟨text, -, isGraph⟩ := embeds.exists_text
  obtain ⟨before, isMerged⟩ := Json.exists_merged_of_ofText isGraph
  have isLegacy := embeds.isLegacy
  cases isObject : graph with
  | object members =>
      obtain ⟨map, isMap, parts⟩ := Json.exists_keyed_of_merged (isMerged.symm.trans isObject)
      rw [isObject, isMap] at isLegacy
      have member : (legacyKey, legacy) ∈ map.entries := Keyed.get?_eq_some_iff.mp isLegacy
      obtain ⟨part, isPart⟩ := parts _ (isMap ▸ member)
      exact ⟨map, part, congrArg Json.object isMap, isPart, member⟩
  | _ => rw [isObject] at isLegacy; cases isLegacy

theorem isRead_legacy : legacy.IsRead := by
  obtain ⟨map, before, rfl, -, member⟩ := embeds.exists_members
  cases embeds.isStorable.isRead with
  | object kept => exact kept _ member

theorem isSound_plan (valid : now.IsValid) (finite : knowledge.IsFinite) :
    (planOf graph learnings knowledge now).knowledge.IsRepresentable ∧
      (planOf graph learnings knowledge now).knowledge.IsLimited store.settings.runHistory ∧
      (planOf graph learnings knowledge now).knowledge.IsFinite := by
  obtain ⟨representable, limited⟩ := isRepresentable_of_loadKnowledge valid embeds.isKnowledge
  have given : ∀ action ∈ learnings.map KnowledgeAction.adopt, action.IsRepresentable := by
    intro action member
    obtain ⟨learning, isLearning, rfl⟩ := List.mem_map.mp member
    exact isRepresentable_of_legacyLearnings embeds.isRead_legacy valid embeds.areLearnings
      learning isLearning
  obtain ⟨held, adopted⟩ := knowledge.performAll_adopt_eq learnings
  have adoptedLimited : (knowledge.performAll (learnings.map .adopt)).IsLimited
      store.settings.runHistory := by
    rw [adopted]
    exact ⟨limited.runLimit, limited.bounded⟩
  have recorded : KnowledgeAction.IsRepresentable (.record
      (migrationRun (adoptAll knowledge learnings).2 now)) := valid
  exact ⟨(representable.performAll given).perform recorded,
    adoptedLimited.perform (.record (migrationRun (adoptAll knowledge learnings).2 now)),
    finite.performAll_adopt learnings⟩

/-- Of the graph document only the key is gone, so that nothing is embedded afterwards. -/
theorem embedsNothing {after : Disk}
    (document : after.readText store.graphPath = .ok (graph.without legacyKey).pretty) :
    store.EmbedsNothing after := by
  obtain ⟨map, before, rfl, -, -⟩ := embeds.exists_members
  refine embedsNothing_of_readText document (embeds.isStorable.without legacyKey) ?_ ?_
  · exact map.nodup_keys.sublist ((List.filter_sublist).map _)
  · rw [Json.member?, List.lookup_eq_none_iff]
    intro member isMember
    have kept := bne_iff_ne.mp (List.mem_filter.mp isMember).2
    exact bne_iff_ne.mpr kept.symm

end Embeds

/-- What migration leaves of a project whose graph document embeds learnings. -/
structure IsMigrated (store : Store) (disk after : Disk) (now : Instant) (report : Migration) :
    Prop where
  moved : ∃ graph legacy learnings knowledge,
    store.Embeds disk now graph legacy learnings knowledge ∧
    after.readText store.graphPath = .ok (graph.without legacyKey).pretty ∧
    (∀ members, legacy = .object members → (members.map (·.1)).Pairwise (· < ·)) ∧
    List.Forall₂ (IsEntry now) (entriesOf legacy) learnings ∧
    report.found = (entriesOf legacy).length ∧
    ∀ project later, ∃ reloaded, store.loadKnowledge after project later = .ok reloaded ∧
      (∀ path, reloaded.learning? path = (knowledge.learning? path).or
        ((learnings.find? (·.modulePath == path)).map Learning.normalize)) ∧
      reloaded.decisions = knowledge.decisions ∧ reloaded.patterns = knowledge.patterns ∧
      reloaded.runs = Knowledge.lastOf (max store.settings.runHistory 1)
        (knowledge.runs ++ [migrationRun report now])
  counted : report.found = report.migrated + report.keptExisting
  again : ∀ later, (store.migrateLegacyKnowledge later).runOn after = (.ok .none, after)

theorem Embeds.isMigrated (embeds : store.Embeds disk now graph legacy learnings knowledge)
    (ready : store.IsReady disk reached) (valid : now.IsValid) (finite : knowledge.IsFinite) :
    let plan := planOf graph learnings knowledge now
    store.IsMigrated disk (migratedOn disk reached plan now) now plan.report := by
  intro plan
  obtain ⟨graphText, knowledgeText⟩ := ready.readText_migratedOn plan now
  obtain ⟨representable, limited, planFinite⟩ := embeds.isSound_plan valid finite
  have entries := forall₂_of_legacyLearnings embeds.areLearnings
  obtain ⟨-, found, sum⟩ := foldl_adoptCounting knowledge .none learnings
  obtain ⟨held, adopted⟩ := knowledge.performAll_adopt_eq learnings
  refine ⟨⟨graph, legacy, learnings, knowledge, embeds, graphText, ?ascending, entries, ?_, ?_⟩,
    ?_, fun later =>
      runOn_migrateLegacyKnowledge_of_embedsNothing (embeds.embedsNothing graphText) later⟩
  case ascending =>
    intro members isObject
    obtain ⟨map, before, -, isMerged, -⟩ := embeds.exists_members
    obtain ⟨inside, rfl, -⟩ := Json.exists_keyed_of_merged (isMerged.symm.trans isObject)
    exact List.pairwise_map.mpr inside.ascending
  · rw [entries.length_eq]
    exact found.trans (Nat.zero_add _)
  · intro project later
    obtain ⟨-, loadedLimited⟩ := isRepresentable_of_loadKnowledge valid embeds.isKnowledge
    have decisions : (knowledge.performAll (learnings.map .adopt)).decisions =
        knowledge.decisions := by rw [adopted]
    have patterns : (knowledge.performAll (learnings.map .adopt)).patterns =
        knowledge.patterns := by rw [adopted]
    have runs : (knowledge.performAll (learnings.map .adopt)).runs = knowledge.runs := by
      rw [adopted]
    have runLimit : (knowledge.performAll (learnings.map .adopt)).runLimit =
        max store.settings.runHistory 1 := by
      rw [adopted]
      exact loadedLimited.runLimit
    exact ⟨_, loadKnowledge_of_written knowledgeText valid representable limited planFinite,
      knowledge.learning?_performAll_adopt learnings, decisions, patterns,
      congrArg₂ (fun limit runs => Knowledge.lastOf limit (runs ++ [_])) runLimit runs⟩
  · have total := found.trans (Nat.zero_add _)
    have parts := sum.trans (Nat.zero_add _)
    exact total.trans parts.symm

theorem Embeds.runOn (embeds : store.Embeds disk now graph legacy learnings knowledge)
    (ready : store.IsReady disk reached) :
    let plan := planOf graph learnings knowledge now
    (store.migrateLegacyKnowledge now).runOn disk =
      (.ok plan.report, migratedOn disk reached plan now) := by
  intro plan
  rw [runOn_migrateLegacyKnowledge, embeds.planMigration]
  dsimp only
  rw [ready.runAll_migrationSteps]

/-- Migration that has succeeded had nothing in its way. -/
theorem exists_isReady_of_complete (embeds : store.Embeds disk now graph legacy learnings knowledge)
    (complete : (DiskStep.runAll now (store.migrationSteps plan now) disk).2 = none) :
    ∃ reached, store.IsReady disk reached := by
  have plain := store.isPlain_dataDirectory
  obtain ⟨text, document, -⟩ := embeds.exists_text
  rw [migrationSteps, DiskStep.runAll_append] at complete
  split at complete
  next firstComplete =>
    obtain ⟨made, place, makes, free⟩ :=
      exists_makes_of_complete plain isEntryName_knowledge firstComplete
    refine exists_isReady mem_graph document fun other member => ?_
    rcases List.mem_pair.mp member with rfl | rfl
    · exact ⟨made, place, makes, free⟩
    · have replaced : (DiskStep.runAll now (documentSteps store.knowledgePath
          (stamped plan.knowledge now).toJson.pretty) disk).1 =
            savedOn made place plan.knowledge now := by
        rw [knowledgePath, Disk.runAll_documentSteps plain isEntryName_knowledge makes,
          if_neg free.beside, if_neg free.document]
        rfl
      rw [replaced] at complete
      obtain ⟨grown, other, grows, otherFree⟩ :=
        exists_makes_of_complete plain isEntryName_graph complete
      -- Making the directory again leads to the same place and removes no directory.
      have located := grows.grown.keepsDirectories.locate
        (free.keepsDirectories.locate makes.located)
      have samePlace := located.symm.trans grows.located
      cases samePlace
      have unchanged {name : String} (notDocument : name ≠ "knowledge.json")
          (notBeside : name ≠ Disk.temporary "knowledge.json")
          (notDirectory : grown.entryAt? (name :: place) ≠ some .directory) :
          made.entryAt? (name :: place) ≠ some .directory := by
        intro taken
        rw [← Disk.entryAt?_replaced_of_ne notDocument notBeside] at taken
        exact notDirectory (grows.grown.entryAt? taken)
      exact ⟨made, place, makes, unchanged (by decide) (by decide) otherFree.document,
        unchanged (by decide) (by decide) otherFree.beside⟩
  next incomplete => exact absurd complete incomplete

/-- A migration that succeeds has found nothing embedded, or has replaced both documents. -/
theorem embedsNothing_or_embeds_of_success {report : Migration} {done : Disk}
    (success : (store.migrateLegacyKnowledge now).runOn disk = (.ok report, done)) :
    store.EmbedsNothing disk ∧ done = disk ∨
      ∃ graph legacy learnings knowledge reached,
        store.Embeds disk now graph legacy learnings knowledge ∧ store.IsReady disk reached ∧
        done = migratedOn disk reached (planOf graph learnings knowledge now) now := by
  obtain ⟨problem, refused⟩ | nothing | ⟨graph, legacy, learnings, knowledge, embeds⟩ :=
    store.planMigration_cases disk now
  · rw [runOn_migrateLegacyKnowledge, refused] at success
    cases success
  · rw [runOn_migrateLegacyKnowledge_of_embedsNothing nothing] at success
    cases success
    exact .inl ⟨nothing, rfl⟩
  · have complete : (DiskStep.runAll now
        (store.migrationSteps (planOf graph learnings knowledge now) now) disk).2 = none := by
      rw [runOn_migrateLegacyKnowledge, embeds.planMigration] at success
      dsimp only at success
      split at success
      next complete => exact complete
      next => cases success
    obtain ⟨reached, ready⟩ := exists_isReady_of_complete embeds complete
    have moved := success.symm.trans (embeds.runOn ready)
    exact .inr ⟨graph, legacy, learnings, knowledge, reached, embeds, ready,
      congrArg Prod.snd moved⟩

/-- A graph document that embeds a learning. -/
def embeddingText : String :=
  "\x7b\"project\": \"demo\", \"knowledge\": \x7b\"b.py\": \x7b\"summary\": \"kept\"\x7d\x7d\x7d"

/-- A disk with that document and others beside it. -/
def embeddingDisk (others : List (String × DiskEntry)) : Disk :=
  ⟨.ofList ([("demo", .directory), ("demo/.scion", .directory),
    ("demo/.scion/graph.json", .file embeddingText.toUTF8 default)] ++ others), []⟩

theorem canWrite_embeddingDisk {name : String} (proper : Path.IsEntryName name)
    (document : (embeddingDisk []).isDirectory
      (Path.resolve demoStore.dataDirectory name) = false)
    (beside : (embeddingDisk []).isDirectory
      (temporaryPath (Path.resolve demoStore.dataDirectory name)) = false) :
    CanWrite (embeddingDisk []) (Path.resolve demoStore.dataDirectory name) :=
  canWrite_of_isDirectory demoStore.isPlain_dataDirectory proper (by decide +kernel) document
    beside

theorem isFinite_embeddingDisk (project : String) (knowledge : Knowledge)
    (loaded : demoStore.loadKnowledge (embeddingDisk []) project default = .ok knowledge) :
    knowledge.IsFinite := by
  have absent : (embeddingDisk []).readText demoStore.knowledgePath = .error .missing := by
    decide +kernel
  rw [loadKnowledge_of_missing absent] at loaded
  cases loaded
  exact nofun

theorem migrate_embeddingDisk :
    ((demoStore.migrateLegacyKnowledge default).runOn (embeddingDisk [])).1 = .ok ⟨1, 1, 0⟩ :=
  toOption_eq_some_iff.mp (by decide +kernel)

end Store

end CodeAtlas
