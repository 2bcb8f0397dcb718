import CodeAtlas.Disk.Action
import CodeAtlas.Feature
import CodeAtlas.Json.Reader
import CodeAtlas.Knowledge

/-!
# The documents of a project

A project keeps its graph, its knowledge, its features and its plans as documents in a data
directory below its root.  A document is replaced as a whole: the new text is written beside it
and then renamed over it.  Learnings that an old graph document embeds are moved into the
knowledge document before anything replaces the graph.
-/

namespace CodeAtlas

/-- The documents below a root, and the settings of the project. -/
structure Store where
  root : String
  settings : Settings
deriving DecidableEq, Repr

/-- What became of the learnings that a graph document embedded. -/
structure Migration where
  /-- Entries in the graph document. -/
  found : Nat
  /-- Entries added to the knowledge document. -/
  migrated : Nat
  /-- Entries of modules that had a learning. -/
  keptExisting : Nat
deriving DecidableEq, Repr

namespace Migration

/-- Nothing to move. -/
def none : Migration := ⟨0, 0, 0⟩

def toJson (migration : Migration) : Json :=
  .object [("found", .ofNat migration.found), ("migrated", .ofNat migration.migrated),
    ("kept_existing", .ofNat migration.keptExisting)]

end Migration

namespace Store

/-- The name of the data directory. -/
def dataDirectoryName : String := ".scion"

/-- The name under which old graph documents embed learnings. -/
def legacyKey : String := "knowledge"

/-- The data directory of a root. -/
def dataDirectoryOf (root : String) : String := Path.resolve root dataDirectoryName

def dataDirectory (store : Store) : String := dataDirectoryOf store.root

/-- Open the store of a root, reading its settings if there are any. -/
def «open» (disk : Disk) (root : String) : Except Problem Store :=
  match disk.readText (Path.resolve (dataDirectoryOf root) "config.toml") with
  | .ok text => do return ⟨root, ← Settings.ofToml text⟩
  | .error .missing => .ok ⟨root, .default⟩
  | .error fault => .error (.inputOutput fault)

/-- A name as part of a file name: characters other than ASCII letters, digits, `_` and `.`
become `-`. -/
def slug (name : String) : String :=
  if name = "" then "unnamed"
  else name.map fun c => if c.isAlphanum || c = '_' || c = '.' then c else '-'

def graphPath (store : Store) : String := Path.resolve store.dataDirectory "graph.json"

def knowledgePath (store : Store) : String := Path.resolve store.dataDirectory "knowledge.json"

def featurePath (store : Store) (name : String) : String :=
  Path.resolve (Path.resolve store.dataDirectory "features") (slug name ++ ".json")

def planPath (store : Store) (feature target : String) : String :=
  Path.resolve (Path.resolve store.dataDirectory "plans")
    (slug feature ++ "--" ++ slug target ++ ".json")

/-- The text of a document; none when it does not exist. -/
def readDocument (disk : Disk) (path : String) : Except Problem (Option String) :=
  match disk.readText path with
  | .ok text => .ok (some text)
  | .error .missing => .ok none
  | .error fault => .error (.inputOutput fault)

/-- A document as a value. -/
def readValue (disk : Disk) (path : String) : Except Problem (Option Json) := do
  match ← readDocument disk path with
  | none => return none
  | some text =>
      match Json.ofText text with
      | some value => return some value
      | none => throw (.notJson (.text .value text))

/-- A document of a kind that decodes; none when it does not exist. -/
def readAs {α : Type} (kind : DocumentKind) (decode : Json → Option α) (disk : Disk)
    (path : String) : Except Problem (Option α) := do
  match ← readDocument disk path with
  | none => return none
  | some text =>
      match (Json.ofText? text).bind decode with
      | some value => return some value
      | none => throw (.notJson (.text kind text))

/-- The path beside a document where its new text is written first. -/
def temporaryPath (path : String) : String := path ++ ".tmp"

/-- How a document is replaced: its new text is written beside it and renamed over it. -/
def documentSteps (path text : String) : List DiskStep :=
  [.makeDirectories (Path.parent path), .write (temporaryPath path) text,
    .rename (temporaryPath path) path]

/-- Replace a document. -/
def writeDocument (path : String) (value : Json) (now : Instant) : DiskAction Unit :=
  .perform (documentSteps path value.pretty) now

/-- The graph document as a graph; none when it does not exist. -/
def loadGraph (store : Store) (disk : Disk) : Except Problem (Option Graph) := do
  match ← readValue disk store.graphPath with
  | none => return none
  | some value =>
      match Graph.ofJson? value with
      | some graph => return some graph
      | none => throw (.notJson (.value .graph value))

/-- The graph of a project that must have been indexed. -/
def requireGraph (store : Store) (disk : Disk) : Except Problem Graph := do
  match ← store.loadGraph disk with
  | some graph => return graph
  | none => throw (.notFound .graph store.graphPath)

/-- The knowledge document, or nothing known. -/
def loadKnowledge (store : Store) (disk : Disk) (project : String) (now : Instant) :
    Except Problem Knowledge := do
  let found ← readAs .knowledge (Knowledge.ofJson? now) disk store.knowledgePath
  return (found.getD (.new project now)).setRunLimit store.settings.runHistory

/-- Knowledge as it is saved at an instant. -/
def stamped (knowledge : Knowledge) (now : Instant) : Knowledge :=
  { knowledge with savedAt := now }

def saveKnowledge (store : Store) (knowledge : Knowledge) (now : Instant) : DiskAction Unit :=
  writeDocument store.knowledgePath (stamped knowledge now).toJson now

/-- Whether the graph document embeds learnings. -/
def hasLegacyKnowledge (store : Store) (disk : Disk) : Except Problem Bool := do
  let value ← readValue disk store.graphPath
  return (value.bind (·.member? legacyKey)).isSome

/-- The learning of an entry, which takes the entry's key when it names no module. -/
def legacyLearning (now : Instant) (key : Option String) (value : Json) :
    Except LegacyFault Learning :=
  match Learning.ofJson? now value with
  | none => .error (.badEntry key value)
  | some learning =>
      if learning.modulePath = "" then
        match key with
        | some key => .ok { learning with modulePath := key }
        | none => .error .unnamedEntry
      else .ok learning

/-- The learnings of an embedded value: a map by module path, a list, or nothing. -/
def legacyLearnings (now : Instant) : Json → Except LegacyFault (List Learning)
  | .object members => members.mapM fun member => legacyLearning now (some member.1) member.2
  | .array items => items.mapM (legacyLearning now none)
  | .null => .ok []
  | value => .error (.unexpectedValue value)

/-- Adopt a learning and count whether it was taken. -/
def adoptCounting (state : Knowledge × Migration) (learning : Learning) :
    Knowledge × Migration :=
  let (knowledge, report) := state
  let (adopted, taken) := knowledge.adoptLearning learning
  if taken then (adopted, ⟨report.found + 1, report.migrated + 1, report.keptExisting⟩)
  else (adopted, ⟨report.found + 1, report.migrated, report.keptExisting + 1⟩)

/-- Adopt learnings one after the other, counting those that were taken. -/
def adoptAll (knowledge : Knowledge) (learnings : List Learning) : Knowledge × Migration :=
  learnings.foldl adoptCounting (knowledge, .none)

/-- What migration writes: the knowledge with the embedded learnings, and the graph document
without them. -/
structure MigrationPlan where
  report : Migration
  knowledge : Knowledge
  graph : Json

/-- What migration would write; none when nothing is embedded. -/
def planMigration (store : Store) (disk : Disk) (now : Instant) :
    Except Problem (Option MigrationPlan) := do
  match ← readValue disk store.graphPath with
  | none => return none
  | some (.object members) =>
      let graph := Json.object members
      match graph.member? legacyKey with
      | none => return none
      | some legacy =>
          let rest := graph.without legacyKey
          let project := ((rest.member? "project").bind Json.asString?).getD ""
          let learnings ← (legacyLearnings now legacy).mapError (.malformed store.graphPath)
          -- The knowledge document is read before anything is written, so a malformed one refuses
          -- the migration with both documents as they were.
          let knowledge ← store.loadKnowledge disk project now
          let (adopted, report) := adoptAll knowledge learnings
          let detail := "migrated " ++ toString report.migrated ++ " of " ++
            toString report.found ++ " embedded learnings"
          return some ⟨report, adopted.recordRun .migrate detail now, rest⟩
  | some _ => throw (.malformed store.graphPath .notAnObject)

/-- The steps of a migration: first the knowledge document is replaced, then the graph
document. -/
def migrationSteps (store : Store) (plan : MigrationPlan) (now : Instant) : List DiskStep :=
  documentSteps store.knowledgePath (stamped plan.knowledge now).toJson.pretty ++
    documentSteps store.graphPath plan.graph.pretty

/-- Move embedded learnings into the knowledge document.  Everything that can be refused is
refused before the first step. -/
def migrateLegacyKnowledge (store : Store) (now : Instant) : DiskAction Migration := do
  match ← DiskAction.inspect (store.planMigration · now) with
  | none => return .none
  | some plan =>
      DiskAction.perform (store.migrationSteps plan now) now
      return plan.report

/-- Replace the graph document, moving embedded learnings out of the old one first. -/
def saveGraph (store : Store) (graph : Graph) (now : Instant) : DiskAction Unit := do
  let _ ← store.migrateLegacyKnowledge now
  writeDocument store.graphPath graph.toJson now

/-- Save a feature under its name; gives the path of its document. -/
def saveFeature (store : Store) (feature : Feature) (now : Instant) : DiskAction String := do
  let path := store.featurePath feature.name
  writeDocument path feature.toJson now
  return path

def loadFeature (store : Store) (disk : Disk) (name : String) : Except Problem Feature := do
  match ← readAs .feature Feature.ofJson? disk (store.featurePath name) with
  | some feature => return feature
  | none => throw (.notFound .feature name)

/-- Save a plan under the names of its feature and target; gives the path of its document. -/
def savePlan (store : Store) (plan : TransplantPlan) (now : Instant) : DiskAction String := do
  let path := store.planPath plan.featureName plan.targetProject
  writeDocument path plan.toJson now
  return path

def loadPlan (store : Store) (disk : Disk) (feature target : String) :
    Except Problem TransplantPlan := do
  match ← readAs .plan TransplantPlan.ofJson? disk (store.planPath feature target) with
  | some plan => return plan
  | none => throw (.notFound .plan (feature ++ " -> " ++ target))

/-- Remove the data directory if it is there. -/
def clear (store : Store) : DiskAction Unit := do
  let disk ← get
  if disk.holds store.dataDirectory then
    if disk.isDirectory store.dataDirectory then
      match disk.remove store.dataDirectory with
      | .ok removed => set removed
      | .error fault => throw (.inputOutput fault)
    else throw (.inputOutput .notDirectory)

end Store

end CodeAtlas
