import CodeAtlas.Proofs.Feature.Read
import CodeAtlas.Proofs.Store.FileName
import CodeAtlas.Proofs.Store.Graph

/-!
# Documents that are saved and loaded again

A graph, a feature or a plan that is saved is loaded again as it was.
-/

namespace CodeAtlas

open Json

namespace Store

variable {store : Store} {disk after : Disk} {feature : Feature} {plan : TransplantPlan}
  {graph : Graph} {value : Json} {name target : String} {now : Instant}

/-- What is written where it can be written is read. -/
theorem exists_readText_of_canWrite (document : Document)
    (canWrite : CanWrite disk (document.path store)) (value : Json) (now : Instant) :
    ∃ after, (writeDocument (document.path store) value now).runOn disk = (.ok (), after) ∧
      after.readText (document.path store) = .ok value.pretty := by
  have plain := Shelf.isPlain_path store document.shelf
  obtain ⟨made, reached, makes, free⟩ :=
    exists_makes_of_writeDocument plain document.proper (canWrite value now)
  exact ⟨_, runOn_writeDocument plain document.proper makes free,
    Disk.readText_replaced plain document.proper makes.located makes.isDirectory free⟩

/-! ## Loading -/

/-- What a document is loaded as, by the text that is read at its path. -/
def decodedFrom {α : Type} (kind : DocumentKind) (decode : Json → Option α) (fallback : Problem) :
    Except DiskFault String → Except Problem α
  | .ok text =>
      match (Json.ofText? text).bind decode with
      | some value => .ok value
      | none => .error (.notJson (.text kind text))
  | .error .missing => .error fallback
  | .error fault => .error (.inputOutput fault)

theorem loadFeature_eq (store : Store) (disk : Disk) (name : String) :
    store.loadFeature disk name = decodedFrom .feature Feature.ofJson? (.notFound .feature name)
      (disk.readText ((Document.feature name).path store)) := by
  rw [loadFeature, readAs, readDocument, Document.path_feature]
  cases disk.readText (store.featurePath name) with
  | error fault => cases fault <;> rfl
  | ok text =>
      simp only [bind, Except.bind, decodedFrom]
      cases (Json.ofText? text).bind Feature.ofJson? <;> rfl

theorem loadPlan_eq (store : Store) (disk : Disk) (name target : String) :
    store.loadPlan disk name target = decodedFrom .plan TransplantPlan.ofJson?
      (.notFound .plan (name ++ " -> " ++ target))
      (disk.readText ((Document.plan name target).path store)) := by
  rw [loadPlan, readAs, readDocument, Document.path_plan]
  cases disk.readText (store.planPath name target) with
  | error fault => cases fault <;> rfl
  | ok text =>
      simp only [bind, Except.bind, decodedFrom]
      cases (Json.ofText? text).bind TransplantPlan.ofJson? <;> rfl

theorem decodedFrom_pretty {α : Type} {kind : DocumentKind} {encode : α → Json}
    {decode : Json → Option α} {admits : α → Prop}
    (back : ReadsBack Json.ofText? encode decode admits) {value : α} (admitted : admits value)
    (fallback : Problem) :
    decodedFrom kind decode fallback (.ok (encode value).pretty) = .ok value := by
  rw [decodedFrom, back.decode_pretty value admitted]

/-! ## Saving -/

theorem runOn_saveFeature (store : Store) (feature : Feature) (now : Instant) (disk : Disk) :
    (store.saveFeature feature now).runOn disk =
      (((writeDocument ((Document.feature feature.name).path store) feature.toJson now).runOn
        disk).1.map fun _ => store.featurePath feature.name,
      ((writeDocument ((Document.feature feature.name).path store) feature.toJson now).runOn
        disk).2) := by
  rw [saveFeature, DiskAction.runOn_bind, Document.path_feature]
  rcases (writeDocument (store.featurePath feature.name) feature.toJson now).runOn disk with
    ⟨_ | _, after⟩ <;> rfl

theorem runOn_savePlan (store : Store) (plan : TransplantPlan) (now : Instant) (disk : Disk) :
    (store.savePlan plan now).runOn disk =
      (((writeDocument ((Document.plan plan.featureName plan.targetProject).path store) plan.toJson
        now).runOn disk).1.map fun _ => store.planPath plan.featureName plan.targetProject,
      ((writeDocument ((Document.plan plan.featureName plan.targetProject).path store) plan.toJson
        now).runOn disk).2) := by
  rw [savePlan, DiskAction.runOn_bind, Document.path_plan]
  rcases (writeDocument (store.planPath plan.featureName plan.targetProject) plan.toJson
    now).runOn disk with ⟨_ | _, after⟩ <;> rfl

theorem exists_saveFeature (representable : feature.IsRepresentable)
    (canWrite : CanWrite disk (store.featurePath feature.name)) (now : Instant) :
    ∃ after, (store.saveFeature feature now).runOn disk =
        (.ok (store.featurePath feature.name), after) ∧
      store.loadFeature after feature.name = .ok feature := by
  obtain ⟨after, written, isRead⟩ := exists_readText_of_canWrite (.feature feature.name) canWrite
    feature.toJson now
  refine ⟨after, ?_, ?_⟩
  · rw [runOn_saveFeature, written]
    rfl
  · rw [loadFeature_eq, isRead]
    exact decodedFrom_pretty Feature.readsBack representable _

theorem exists_savePlan (plan : TransplantPlan)
    (canWrite : CanWrite disk (store.planPath plan.featureName plan.targetProject))
    (now : Instant) :
    ∃ after, (store.savePlan plan now).runOn disk =
        (.ok (store.planPath plan.featureName plan.targetProject), after) ∧
      store.loadPlan after plan.featureName plan.targetProject = .ok plan := by
  obtain ⟨after, written, isRead⟩ := exists_readText_of_canWrite
    (.plan plan.featureName plan.targetProject) canWrite plan.toJson now
  refine ⟨after, ?_, ?_⟩
  · rw [runOn_savePlan, written]
    rfl
  · rw [loadPlan_eq, isRead]
    exact decodedFrom_pretty TransplantPlan.readsBack trivial _

theorem exists_saveGraph (nothing : store.EmbedsNothing disk)
    (representable : graph.IsRepresentable) (canWrite : CanWrite disk store.graphPath)
    (now : Instant) :
    ∃ after, (store.saveGraph graph now).runOn disk = (.ok (), after) ∧
      store.loadGraph after = .ok (some graph) := by
  obtain ⟨after, written, isRead⟩ :=
    exists_readText_of_canWrite .graph canWrite graph.toJson now
  refine ⟨after, ?_, loadGraph_of_written representable isRead⟩
  rw [runOn_saveGraph_of_embedsNothing nothing]
  exact written

/-- Graphs, features and plans are read back as they were written, and what is decoded is written
in a form that stays as it is.  So each is loaded as it was saved where its document can be
written; a graph replaces only a document that embeds nothing. -/
theorem documents_read_back (store : Store) (disk : Disk) (now : Instant) :
    (ReadsBack Json.ofText Graph.toJson Graph.ofJson? Graph.IsRepresentable ∧
      ReadsBack Json.ofText? Feature.toJson Feature.ofJson? Feature.IsRepresentable ∧
      ReadsBack Json.ofText? TransplantPlan.toJson TransplantPlan.ofJson? fun _ => True) ∧
      (∀ graph : Graph, graph.IsRepresentable → store.EmbedsNothing disk →
        CanWrite disk store.graphPath →
        ∃ after, (store.saveGraph graph now).runOn disk = (.ok (), after) ∧
          store.loadGraph after = .ok (some graph)) ∧
      (∀ feature : Feature, feature.IsRepresentable →
        CanWrite disk (store.featurePath feature.name) →
        ∃ after, (store.saveFeature feature now).runOn disk =
            (.ok (store.featurePath feature.name), after) ∧
          store.loadFeature after feature.name = .ok feature) ∧
      ∀ plan : TransplantPlan, CanWrite disk (store.planPath plan.featureName plan.targetProject) →
        ∃ after, (store.savePlan plan now).runOn disk =
            (.ok (store.planPath plan.featureName plan.targetProject), after) ∧
          store.loadPlan after plan.featureName plan.targetProject = .ok plan :=
  ⟨⟨Graph.readsBack, Feature.readsBack, TransplantPlan.readsBack⟩,
    fun _ representable nothing canWrite => exists_saveGraph nothing representable canWrite now,
    fun _ representable canWrite => exists_saveFeature representable canWrite now,
    fun plan canWrite => exists_savePlan plan canWrite now⟩

/-- A disk with a project whose shelves are empty. -/
def shelvedDisk : Disk :=
  ⟨.ofList [("demo", .directory), ("demo/.scion", .directory),
    ("demo/.scion/features", .directory), ("demo/.scion/plans", .directory)], []⟩

theorem isHome_shelvedDisk : demoStore.IsHome shelvedDisk ["demo"] :=
  ⟨by decide +kernel, by decide +kernel, by decide +kernel⟩

theorem mem_of_entryAt?_shelvedDisk {reached : List String} {entry : DiskEntry}
    (some : reached ≠ []) (found : shelvedDisk.entryAt? reached = .some entry) :
    entry = .directory ∧ Disk.location reached ∈
      ["demo", "demo/.scion", "demo/.scion/features", "demo/.scion/plans"] := by
  rw [Disk.entryAt?, if_neg (by simpa using some)] at found
  have member := Keyed.mem_of_mem_ofList (Keyed.get?_eq_some_iff.mp found)
  simp only [List.mem_cons, List.not_mem_nil, or_false, Prod.mk.injEq] at member ⊢
  exact ⟨by tauto, by tauto⟩

/-- Every document can be written there. -/
theorem canWrite_shelvedDisk (document : Document) :
    CanWrite shelvedDisk (document.path demoStore) := by
  have free {name : String} (ending : String) (ends : ending.toList <:+ name.toList)
      (none : ∀ place ∈ ["demo", "demo/.scion", "demo/.scion/features", "demo/.scion/plans"],
        ¬ending.toList <:+ place.toList) (reached : List String) :
      shelvedDisk.entryAt? (name :: reached) ≠ some .directory := by
    intro found
    obtain ⟨-, place⟩ := mem_of_entryAt?_shelvedDisk (List.cons_ne_nil _ _) found
    refine none _ place (ends.trans ?_)
    rw [Disk.location_cons_eq, String.toList_append]
    exact List.suffix_append ..
  have endsBeside : ".tmp".toList <:+ (Disk.temporary document.name).toList :=
    ⟨document.name.toList, by rw [Disk.temporary, String.toList_append]⟩
  refine (isHome_shelvedDisk.canWrite_iff document).mpr ⟨fun front _ content modified found => ?_,
    free ".json" document.ending (by decide) _, free ".tmp" endsBeside (by decide) _⟩
  obtain ⟨isDirectory, -⟩ := mem_of_entryAt?_shelvedDisk (by simp) found
  cases isDirectory

/-- A feature of which every part is present. -/
def demoFeature : Feature where
  name := "sea"
  sourceProject := "demo"
  extractedAt := ⟨0, 1⟩
  primary := "a.py"
  components := ["a.py"]
  ordering := .degraded ["a.py"]
  requires := ["numpy"]
  provides := [⟨"f", .function, "def f()"⟩]
  codeRefs := .ofList [("a.py", ⟨"a.py", "", ⟨0, 1⟩, some ⟨1, 2⟩⟩)]
  snapshots := some (.ofList [("a.py", "x = 1")])

def demoPlan : TransplantPlan where
  featureName := "sea"
  sourceProject := "demo"
  targetProject := "land"
  mappings := [⟨"f", "a.py", none, some "b.py", .create⟩]
  wiring := [⟨"pyproject.toml", "numpy"⟩]
  generationOrder := []
  ordering := .complete

theorem isRepresentable_demoFeature : demoFeature.IsRepresentable := by
  have valid : (⟨0, 1⟩ : Instant).IsValid := by decide +kernel
  refine ⟨valid, fun reference member => ?_⟩
  obtain rfl : reference = ⟨"a.py", "", ⟨0, 1⟩, some ⟨1, 2⟩⟩ := List.mem_singleton.mp member
  refine ⟨valid, fun range isRange => ?_⟩
  cases isRange
  decide

/-- Two modules that import each other; one of them offers a function. -/
def demoGraph : Graph where
  project := "demo"
  version := 1
  indexedAt := ⟨0, 1⟩
  modules := .ofList [
    ("a.py", ⟨"a.py", .python, 3, "", [⟨"f", .function, "def f()", "", [], 2⟩], ["b.py"], []⟩),
    ("b.py", ⟨"b.py", .python, 1, "", [], ["a.py"], ["numpy"]⟩)]
  edges := [⟨"a.py", "b.py", .importStatement, []⟩, ⟨"b.py", "a.py", .fromImport, ["f"]⟩,
    ⟨"b.py", "numpy", .importStatement, []⟩]

theorem isRepresentable_demoGraph : demoGraph.IsRepresentable := by
  refine ⟨by decide, by decide +kernel, fun module member => ?_⟩
  have narrow : ∀ module ∈ demoGraph.modules.values,
      module.lines < 2 ^ 32 ∧ ∀ interface ∈ module.interfaces, interface.line < 2 ^ 32 := by
    decide +kernel
  exact ⟨(narrow module member).1, (narrow module member).2⟩

/-- The graph document of a project without modules. -/
def oldGraphText : String := (Graph.new "demo" default).toJson.pretty

/-- A disk with that document. -/
def oldGraphDisk : Disk :=
  ⟨.ofList [("demo", .directory), ("demo/.scion", .directory),
    ("demo/.scion/graph.json", .file oldGraphText.toUTF8 default)], []⟩

/-- A feature and a plan are saved on their shelves, and a graph over an older one. -/
theorem documents_read_back_shelved :
    (∃ after, demoStore.loadGraph oldGraphDisk = .ok (some (.new "demo" default)) ∧
        (demoStore.saveGraph demoGraph default).runOn oldGraphDisk = (.ok (), after) ∧
        demoStore.loadGraph after = .ok (some demoGraph)) ∧
      (∃ after, (demoStore.saveFeature demoFeature default).runOn shelvedDisk =
          (.ok (demoStore.featurePath "sea"), after) ∧
        demoStore.loadFeature after "sea" = .ok demoFeature) ∧
      ∃ after, (demoStore.savePlan demoPlan default).runOn shelvedDisk =
          (.ok (demoStore.planPath "sea" "land"), after) ∧
        demoStore.loadPlan after "sea" "land" = .ok demoPlan := by
  obtain ⟨-, -, features, plans⟩ := documents_read_back demoStore shelvedDisk default
  obtain ⟨-, graphs, -⟩ := documents_read_back demoStore oldGraphDisk default
  have bare : (Graph.new "demo" default).IsRepresentable :=
    ⟨by decide, by decide +kernel, nofun⟩
  have document : oldGraphDisk.readText demoStore.graphPath = .ok oldGraphText :=
    toOption_eq_some_iff.mp (by decide +kernel)
  have canWrite : CanWrite oldGraphDisk demoStore.graphPath :=
    canWrite_of_isDirectory demoStore.isPlain_dataDirectory isEntryName_graph
      (by decide +kernel) (by decide +kernel) (by decide +kernel)
  obtain ⟨after, saved, loaded⟩ := graphs demoGraph isRepresentable_demoGraph
    (embedsNothing_of_written bare document) canWrite
  exact ⟨⟨after, loadGraph_of_written bare document, saved, loaded⟩,
    features demoFeature isRepresentable_demoFeature (canWrite_shelvedDisk (.feature "sea")),
    plans demoPlan (canWrite_shelvedDisk (.plan "sea" "land"))⟩

end Store

end CodeAtlas
