import CodeAtlas.Proofs.Command.Action
import CodeAtlas.Proofs.Store.Reindex
import CodeAtlas.Proofs.Store.RoundTrip

/-!
# What commands do to the documents of a project

Other than clearing, a command changes nothing, or writes a document for its user and then records
the run, or writes what it changed of the knowledge together with the run.  Only if a graph embeds
learnings they are moved before.
-/

namespace CodeAtlas

open Store

namespace Command

/-- A document that a command writes for its user. -/
inductive Outputs (reader : SyntaxReader) (now : Instant) : Command → Document → Json → Prop
  | index (language : Option Language) (project : Option String) {options : IndexOptions}
      {root : String} {disk : Disk} {report : IndexReport}
      (isReport : CodeAtlas.index reader options root disk now = .ok report) :
      Outputs reader now (.index language project) .graph report.graph.toJson
  | extract (selection : Selection) (name : Option String) (snapshots : Bool)
      (feature : Feature) :
      Outputs reader now (.extract selection name snapshots) (.feature feature.name) feature.toJson
  | plan (name : String) (plan : TransplantPlan) :
      Outputs reader now (.plan name plan.targetProject)
        (.plan plan.featureName plan.targetProject) plan.toJson

section

variable {reader : SyntaxReader} {now : Instant} {command : Command} {document : Document}
  {value : Json} (outputs : command.Outputs reader now document value)

include outputs

theorem Outputs.ne_knowledge : .knowledge ≠ document := by
  cases outputs with
  | index => decide
  | extract | plan => exact fun same => nomatch congrArg Document.shelf same

/-- What a command writes in the place of the graph is a graph. -/
theorem Outputs.exists_graph (valid : now.IsValid) (isGraph : .graph = document) :
    ∃ graph : Graph, graph.IsRepresentable ∧ value = graph.toJson := by
  cases outputs with
  | index language project isReport => exact ⟨_, isRepresentable_of_index valid isReport, rfl⟩
  | extract | plan => exact nomatch congrArg Document.shelf isGraph

end

/-- What a command can tell that changes nothing. -/
inductive Tells : Command → String → Prop
  | find (query : String) (knowledge : Bool) (limit : Nat) (output : String) :
      Tells (.find query knowledge limit) output
  | impact (module output : String) : Tells (.impact module) output
  | stale (output : String) : Tells .stale output
  | fresh (module : String) : Tells (.refresh module) (Run.line (module ++ " is up to date"))
  | migrate (output : String) : Tells .migrate output

/-- How a command changes knowledge, and what it tells then. -/
inductive Changes (disk : Disk) (root : String) (now : Instant) (knowledge : Knowledge) :
    Command → Knowledge → String → Prop
  | learned {request : LearnRequest} {reference : CodeReference} {changed : Knowledge}
      (isNew : request.relearn = false)
      (captured : CodeReference.capture disk root request.module none = .ok reference)
      (adds : knowledge.addLearning (Run.learningOf request reference now) now = .ok changed) :
      Changes disk root now knowledge (.learn request) changed
        (Run.line (request.module ++ " " ++ Run.versioned 1))
  | relearned {request : LearnRequest} {reference : CodeReference} {changed : Knowledge}
      {version : Nat} (isOld : request.relearn = true)
      (captured : CodeReference.capture disk root request.module none = .ok reference)
      (relearns : knowledge.relearn (Run.learningOf request reference now) now =
        .ok (changed, version)) :
      Changes disk root now knowledge (.learn request) changed
        (Run.line (request.module ++ " " ++ Run.versioned version))
  | refreshed {module : String} {changed : Knowledge} {version : Nat}
      (refreshes : knowledge.refresh module disk root now = .ok (changed, .refreshed version)) :
      Changes disk root now knowledge (.refresh module) changed
        (Run.line (module ++ " refreshed to " ++ Run.versioned version))

end Command

open Command

/-- What comes of running a command on the documents of a project. -/
inductive Effect (reader : SyntaxReader) (store : Store) (base : List String) (now : Instant)
    (before : Disk) (command : Command) : Except Failure String × Disk → Prop
  | stopped (failure : Failure) :
      Effect reader store base now before command (.error failure, before)
  | told {output : String} (tells : command.Tells output) :
      Effect reader store base now before command (.ok output, before)
  | published {document : Document} {value : Json} {kind : RunKind} {detail : String}
      {result : Except Failure Unit} {after : Disk} (output : String)
      (outputs : command.Outputs reader now document value)
      (publishes : store.Publishes base document value kind detail now before result after) :
      Effect reader store base now before command (result.map fun _ => output, after)
  | learned {project : String} {knowledge changed : Knowledge} {kind : RunKind}
      {detail output : String} {result : Except Problem Unit} {after : Disk}
      (loaded : store.loadKnowledge before project now = .ok knowledge)
      (changes : command.Changes before store.root now knowledge changed output)
      (writes : Writes .knowledge base (stamped (changed.recordRun kind detail now) now).toJson
        before result after) :
      Effect reader store base now before command
        ((result.mapError (Failure.stopped · none)).map fun _ => output, after)

/-- Commands remove no directory. -/
theorem Effect.keepsDirectories {reader : SyntaxReader} {store : Store} {base : List String}
    {now : Instant} {before : Disk} {command : Command} {ended : Except Failure String × Disk}
    (effect : Effect reader store base now before command ended) :
    before.KeepsDirectories ended.2 := by
  cases effect with
  | stopped | told => exact ⟨rfl, id⟩
  | published _ _ publishes => exact publishes.keepsDirectories
  | learned _ _ writes => exact writes.touches.keeps

namespace Run

variable {reader : SyntaxReader} {store : Store} {base : List String} {disk migrated : Disk}
  {now : Instant} {command : Command} {action : Run String}

/-! ## Commands that only look -/

theorem isLook_requireGraph (store : Store) : IsLook (requireGraph store) := isLook_look _ _

theorem isLook_openStore (root : String) : IsLook (openStore root) := isLook_look _ _

theorem isLook_targetGraph (registry : Option String) (target : String) :
    IsLook (targetGraph registry target) := by
  cases registry with
  | none => exact isLook_throw _
  | some path =>
      exact (isLook_look _ _).bind fun _ => (isLook_look _ _).bind fun _ =>
        (isLook_openStore _).bind fun _ => isLook_look _ _

theorem isLook_extractSelected (store : Store) (graph : Graph) (selection : Selection)
    (options : ExtractOptions) (now : Instant) :
    IsLook (extractSelected store graph selection options now) := by
  cases selection with
  | module | bestMatch => exact isLook_look _ _
  | unspecified => exact isLook_throw _

theorem isLook_findModules (store : Store) (context : Search.Context) (query : String)
    (limit : Nat) : IsLook (findModules store context query limit) :=
  (isLook_requireGraph store).bind fun _ => isLook_pure _

theorem isLook_findLearnings (store : Store) (context : Search.Context) (query : String)
    (limit : Nat) : IsLook (findLearnings store context query limit) :=
  (isLook_projectName store).bind fun _ => (isLook_look _ _).bind fun _ =>
    isLook_get.bind fun _ => isLook_pure _

theorem isLook_impact (store : Store) (module : String) : IsLook (Run.impact store module) :=
  (isLook_requireGraph store).bind fun _ => (isLook_look _ _).bind fun _ => isLook_pure _

theorem isLook_stale (store : Store) (now : Instant) : IsLook (Run.stale store now) :=
  (isLook_loadKnowledge store now).bind fun _ => isLook_get.bind fun _ => isLook_pure _

theorem IsLook.effect (looks : IsLook action) (tells : ∀ output, command.Tells output)
    (disk : Disk) : Effect reader store base now disk command (action.runOn disk) := by
  have same := looks disk
  revert same
  rcases action.runOn disk with ⟨_ | output, after⟩ <;> rintro rfl
  · exact .stopped _
  · exact .told (tells output)

/-! ## Commands that write -/

section

variable (home : store.IsHome disk base)

include home

theorem effect_extract (selection : Selection) (name : Option String) (snapshots : Bool)
    (now : Instant) : Effect reader store base now disk (.extract selection name snapshots)
      ((Run.extract store selection ⟨name, snapshots⟩ now).runOn disk) := by
  rw [Run.extract, (isLook_requireGraph store).runOn_bind]
  cases ((requireGraph store).runOn disk).1 with
  | error failure => exact .stopped failure
  | ok graph =>
      dsimp only
      rw [(isLook_extractSelected store graph selection _ now).runOn_bind]
      cases ((extractSelected store graph selection ⟨name, snapshots⟩ now).runOn disk).1 with
      | error failure => exact .stopped failure
      | ok feature =>
          obtain ⟨result, after, runs, publishes⟩ := exists_publishes home
            (runOn_saveFeature store feature now disk) .extract
            (feature.name ++ " (" ++ toString feature.components.length ++ " components)")
          dsimp only
          rw [runs]
          exact .published _ (.extract selection name snapshots feature) publishes

theorem effect_plan (registry : Option String) (feature target : String) (now : Instant) :
    Effect reader store base now disk (.plan feature target)
      ((Run.plan store registry feature target now).runOn disk) := by
  rw [Run.plan, (isLook_look _ _).runOn_bind]
  cases (Run.runOn (look (store.loadFeature · feature)
    (some (.lookingForFeature feature))) disk).1 with
  | error failure => exact .stopped failure
  | ok found =>
      dsimp only
      rw [(isLook_targetGraph registry target).runOn_bind]
      cases ((targetGraph registry target).runOn disk).1 with
      | error failure => exact .stopped failure
      | ok graph =>
          obtain ⟨result, after, runs, publishes⟩ := exists_publishes home
            (runOn_savePlan store (found.plan graph target) now disk) .plan
            ((found.plan graph target).featureName ++ " -> " ++ target ++
              " (" ++ toString (found.plan graph target).mappings.length ++ " mappings)")
          dsimp only
          rw [runs]
          exact .published _ (.plan feature (found.plan graph target)) publishes

/-- Changed knowledge is written with the run that changed it. -/
theorem effect_saveKnowledge {project : String} {knowledge changed : Knowledge} {output : String}
    (loaded : store.loadKnowledge disk project now = .ok knowledge)
    (changes : command.Changes disk store.root now knowledge changed output) (kind : RunKind)
    (detail : String) : Effect reader store base now disk command (Run.runOn (do
      saveKnowledge store (changed.recordRun kind detail now) now
      return output) disk) := by
  obtain ⟨result, after, runs, writes⟩ := home.exists_writes .knowledge
    (stamped (changed.recordRun kind detail now) now).toJson now
  have effect : Effect reader store base now disk command _ := .learned loaded changes writes
  rw [Run.runOn_bind, runOn_saveKnowledge, runs]
  cases result <;> exact effect

theorem effect_learn (request : LearnRequest) (now : Instant) :
    Effect reader store base now disk (.learn request)
      ((Run.learn store request now).runOn disk) := by
  rw [Run.learn, (isLook_loadKnowledge store now).runOn_bind]
  obtain ⟨failure, project, runs, -⟩ | ⟨project, knowledge, loaded, runs⟩ :=
    loadKnowledge_cases store now disk
  · rw [runs]
    exact .stopped failure
  rw [runs]
  dsimp only
  rw [Run.runOn_bind, runOn_look]
  cases captured : CodeReference.capture disk store.root request.module none with
  | error problem => exact .stopped _
  | ok reference =>
      dsimp only [Except.mapError]
      rw [Run.runOn_bind, runOn_look]
      cases isOld : request.relearn with
      | true =>
          simp only [if_true]
          cases relearns : knowledge.relearn (learningOf request reference now) now with
          | error problem => exact .stopped _
          | ok result =>
              exact effect_saveKnowledge home loaded (.relearned isOld captured relearns) ..
      | false =>
          simp only [Bool.false_eq_true, if_false]
          cases adds : knowledge.addLearning (learningOf request reference now) now with
          | error problem => exact .stopped _
          | ok changed =>
              exact effect_saveKnowledge home loaded (.learned isOld captured adds) ..

theorem effect_refresh (module : String) (now : Instant) :
    Effect reader store base now disk (.refresh module)
      ((Run.refresh store module now).runOn disk) := by
  rw [Run.refresh, (isLook_loadKnowledge store now).runOn_bind]
  obtain ⟨failure, project, runs, -⟩ | ⟨project, knowledge, loaded, runs⟩ :=
    loadKnowledge_cases store now disk
  · rw [runs]
    exact .stopped failure
  rw [runs]
  dsimp only
  rw [Run.runOn_bind, runOn_look]
  cases refreshes : knowledge.refresh module disk store.root now with
  | error problem => exact .stopped _
  | ok result =>
      obtain ⟨changed, outcome⟩ := result
      cases outcome with
      | alreadyFresh => exact .told (.fresh module)
      | refreshed version => exact effect_saveKnowledge home loaded (.refreshed refreshes) ..

end

/-- Indexing works on what migration leaves. -/
theorem effect_index {migration : Migration} (tree : disk.IsTree)
    (migrates : (store.migrateLegacyKnowledge now).runOn disk = (.ok migration, migrated))
    (home : store.IsHome migrated base) (language : Option Language) (project : Option String) :
    Effect reader store base now migrated (.index language project)
      ((Run.index reader store language project now).runOn disk) := by
  rw [Run.index, Run.runOn_bind, runOn_get]
  dsimp only
  rw [Run.runOn_bind, runOn_act, runOn_reindex tree, migrates]
  dsimp only
  obtain ⟨problem, -, runs⟩ | ⟨report, isReport, ⟨fault, after, runs, writes⟩ |
    ⟨written, writes, recorded, after, runs, records⟩⟩ := home.reindexMigrated_cases reader
      (project.getD (defaultName disk store.root)) language migration now
  · rw [runs]
    exact .stopped _
  · rw [runs]
    have publishes : store.Publishes base .graph report.graph.toJson .index report.detail now
        migrated (.error (Failure.stopped (.inputOutput fault) (some .indexing))) after :=
      .blocked _ writes
    exact .published "" (.index language project isReport) publishes
  · rw [runs]
    have publishes : store.Publishes base .graph report.graph.toJson .index report.detail now
        migrated (recorded.mapError (Failure.stopped · (some .indexing))) after :=
      .written _ writes (records.mapError _)
    have effect (output : String) :=
      Effect.published output (.index language project isReport) publishes
    cases recorded with
    | ok done => exact effect _
    | error problem => exact effect ""

/-- Where nothing is embedded, every command but clearing has an effect of these. -/
theorem effect_of_run {invocation : Invocation} (home : store.IsHome disk base)
    (nothing : store.EmbedsNothing disk) (opened : Store.open disk invocation.root = .ok store)
    (notClear : invocation.command ≠ .clear) (now : Instant) :
    Effect reader store base now disk invocation.command
      ((invocation.run reader now).runOn disk) := by
  rw [Invocation.run, Run.runOn_bind, openStore, runOn_look, opened]
  dsimp only [Except.mapError]
  cases isCommand : invocation.command with
  | index language project =>
      exact effect_index home.tree (runOn_migrateLegacyKnowledge_of_embedsNothing nothing now)
        home language project
  | find query knowledge limit =>
      cases knowledge with
      | true => exact (isLook_findLearnings store _ query limit).effect (fun _ => .find ..) disk
      | false => exact (isLook_findModules store _ query limit).effect (fun _ => .find ..) disk
  | impact module => exact (isLook_impact store module).effect (fun _ => .impact ..) disk
  | extract selection name snapshots => exact effect_extract home selection name snapshots now
  | plan feature target => exact effect_plan home invocation.registry feature target now
  | learn request => exact effect_learn home request now
  | refresh module => exact effect_refresh home module now
  | stale => exact (isLook_stale store now).effect (fun _ => .stale _) disk
  | migrate =>
      dsimp only
      rw [Run.migrate, Run.runOn_bind, runOn_act,
        runOn_migrateLegacyKnowledge_of_embedsNothing nothing]
      exact .told (.migrate _)
  | clear => exact absurd isCommand notClear

end Run

end CodeAtlas
