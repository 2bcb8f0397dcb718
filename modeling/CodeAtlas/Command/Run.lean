import CodeAtlas.Command.Basic
import CodeAtlas.Command.Failure
import CodeAtlas.Command.Usage
import CodeAtlas.Extraction
import CodeAtlas.Graph.Impact
import CodeAtlas.Indexing
import CodeAtlas.Registry
import CodeAtlas.Transplant

/-!
# Running commands

What each command does with a disk, and what it prints.  A command that fails prints nothing; what
it changed on the disk before stays changed.  The libraries under the program are given: what
parses sources to syntax trees, and how faults of documents are worded.
-/

namespace CodeAtlas

open Command

/-- The libraries that the program stands on. -/
structure Libraries where
  reader : SyntaxReader
  wording : Wording

namespace Libraries

/-- What stands in for the libraries: sources without errors are read by their lexemes, and faults
are described plainly. -/
def plain : Libraries := ⟨.ofLexemes, .plain⟩

end Libraries

/-- A running command: what it prints or why it fails, and the disk afterwards. -/
abbrev Run := ExceptT Failure (StateM Disk)

namespace Run

/-- An action on the disk, in given circumstances. -/
def act {α : Type} (action : DiskAction α) (circumstance : Option Circumstance) : Run α :=
  ExceptT.adapt (Failure.stopped · circumstance) action

/-- A look at the disk, in given circumstances. -/
def look {α : Type} (read : Disk → Except Problem α) (circumstance : Option Circumstance) :
    Run α :=
  act (DiskAction.inspect read) circumstance

/-- A line of output. -/
def line (text : String) : String := text ++ "\n"

/-- A value as output. -/
def shown (value : Json) : String := line value.pretty

def openStore (root : String) : Run Store :=
  look (Store.open · root) (some (.openingProject root))

def requireGraph (store : Store) : Run Graph :=
  look store.requireGraph (some .lookingForGraph)

/-- The name of a project that has none: that of the directory which its root leads to. -/
def defaultName (disk : Disk) (root : String) : String :=
  match disk.locate root with
  | .ok (name :: reached) => if (disk.entryAt? (name :: reached)).isSome then name else unnamed
  | _ => unnamed
where
  /-- The name of a project at the top of a disk or nowhere. -/
  unnamed : String := "project"

/-- The name of an indexed project, or else that of its root. -/
def projectName (store : Store) : Run String := do
  let graph ← look store.loadGraph none
  return (graph.map (·.project)).getD (defaultName (← get) store.root)

def loadKnowledge (store : Store) (now : Instant) : Run Knowledge := do
  let project ← projectName store
  look (store.loadKnowledge · project now) (some (.readingKnowledge project))

def saveKnowledge (store : Store) (knowledge : Knowledge) (now : Instant) : Run Unit :=
  act (store.saveKnowledge knowledge now) none

/-- Record a run in the knowledge of a project. -/
def recordRun (store : Store) (kind : RunKind) (detail : String) (now : Instant) : Run Unit := do
  let knowledge ← loadKnowledge store now
  saveKnowledge store (knowledge.recordRun kind detail now) now

def index (reader : SyntaxReader) (store : Store) (language : Option Language)
    (project : Option String) (now : Instant) : Run String := do
  let project := project.getD (defaultName (← get) store.root)
  let report ← act (store.reindex reader project language now) (some .indexing)
  let skipped := report.failures.map fun failure =>
    line ("skipped " ++ failure.path ++ ": " ++ failure.fault.message)
  return String.join skipped ++ line (toString report.graph.modules.size ++ " modules, " ++
    toString report.graph.edges.length ++ " edges written to " ++ store.graphPath)

/-- A score as it is written. -/
def scoreJson (score : Binary32) : Json := .ofDouble (score.convert .double)

def findModules (store : Store) (context : Search.Context) (query : String) (limit : Nat) :
    Run String := do
  let graph ← requireGraph store
  return shown (.array ((graph.search context query limit).map fun hit =>
    .object [("path", .string hit.item.path), ("score", scoreJson hit.score),
      ("summary", .string hit.item.summary)]))

def findLearnings (store : Store) (context : Search.Context) (query : String) (limit : Nat) :
    Run String := do
  let project ← projectName store
  let knowledge ← look (store.loadKnowledge · project context.now) none
  let disk ← get
  let stale (learning : Learning) : Bool := learning.isStale disk store.root
  return shown (.array ((knowledge.search context stale query limit).map fun hit =>
    .object [("module_path", .string hit.item.modulePath), ("score", scoreJson hit.score),
      ("stale", .bool (stale hit.item)), ("summary", .string hit.item.summary)]))

def impact (store : Store) (module : String) : Run String := do
  let graph ← requireGraph store
  return shown (← look (fun _ => graph.impact module) none).toJson

/-- The feature around the module that is selected. -/
def extractSelected (store : Store) (graph : Graph) (selection : Selection)
    (options : ExtractOptions) (now : Instant) : Run Feature :=
  match selection with
  | .module path => look (Feature.extract graph · store.root path options now) none
  | .bestMatch query =>
      look (Feature.extractMatching graph · store.root query options
        ⟨store.settings.search, now⟩ now) none
  | .unspecified => throw .noSelection

def extract (store : Store) (selection : Selection) (options : ExtractOptions) (now : Instant) :
    Run String := do
  let graph ← requireGraph store
  let feature ← extractSelected store graph selection options now
  let path ← act (store.saveFeature feature now) none
  recordRun store .extract
    (feature.name ++ " (" ++ toString feature.components.length ++ " components)") now
  return line path

/-- The registry at a path. -/
def readRegistry (path : String) (disk : Disk) : Except Problem Registry :=
  match disk.readText path with
  | .ok text => Registry.ofToml text
  | .error .missing => .error (.notFound .registry path)
  | .error fault => .error (.inputOutput fault)

/-- The graph of another project that a registry names. -/
def targetGraph (registry : Option String) (target : String) : Run Graph := do
  match registry with
  | none => throw (.noRegistry target)
  | some path =>
      let registry ← look (readRegistry path) (some (.readingRegistry path))
      let entry ← look (fun _ => registry.project target) none
      let store ← openStore entry.root
      look store.requireGraph (some (.lookingForTarget target))

def plan (store : Store) (registry : Option String) (feature target : String) (now : Instant) :
    Run String := do
  let feature ← look (store.loadFeature · feature) (some (.lookingForFeature feature))
  let graph ← targetGraph registry target
  let plan := feature.plan graph target
  let path ← act (store.savePlan plan now) none
  recordRun store .plan (plan.featureName ++ " -> " ++ target ++
    " (" ++ toString plan.mappings.length ++ " mappings)") now
  return line path

/-- The name and the description of a function, without the blanks around them. -/
def functionEntry (text : String) : String × String :=
  let trimmed (characters : List Char) : String := String.ofList (Text.trim characters)
  match Text.splitOnce? '=' text.toList with
  | some (name, description) => (trimmed name, trimmed description)
  | none => (trimmed text.toList, "")

/-- The learning that a user gives, with a reference to the module as it is. -/
def learningOf (request : LearnRequest) (reference : CodeReference) (now : Instant) : Learning :=
  { Learning.blank now with
    modulePath := request.module
    summary := request.summary
    purpose := request.purpose.getD ""
    keyFunctions := .ofList (request.functions.map functionEntry)
    gotchas := request.gotchas
    sourceRef := some reference }

/-- A version as it is written. -/
def versioned (version : Nat) : String := "v" ++ toString version

def learn (store : Store) (request : LearnRequest) (now : Instant) : Run String := do
  let knowledge ← loadKnowledge store now
  let reference ← look (CodeReference.capture · store.root request.module none)
    (some (.capturing request.module))
  let learning := learningOf request reference now
  let (learned, version) ← look (fun _ =>
    if request.relearn then knowledge.relearn learning now
    else (knowledge.addLearning learning now).map fun added => (added, 1)) none
  let detail := request.module ++ " " ++ versioned version
  saveKnowledge store (learned.recordRun .learn detail now) now
  return line detail

def refresh (store : Store) (module : String) (now : Instant) : Run String := do
  let knowledge ← loadKnowledge store now
  let (refreshed, outcome) ←
    look (fun disk => knowledge.refresh module disk store.root now) none
  match outcome with
  | .refreshed version => do
      let detail := module ++ " " ++ versioned version
      saveKnowledge store (refreshed.recordRun .refresh detail now) now
      return line (module ++ " refreshed to " ++ versioned version)
  | .alreadyFresh => return line (module ++ " is up to date")

def stale (store : Store) (now : Instant) : Run String := do
  let knowledge ← loadKnowledge store now
  let learnings := (knowledge.partition (← get) store.root).1
  return shown (.ofStrings (learnings.map (·.modulePath)))

def migrate (store : Store) (now : Instant) : Run String := do
  return shown (← act (store.migrateLegacyKnowledge now) none).toJson

def clear (store : Store) : Run String := do
  act store.clear none
  return ""

end Run

namespace Invocation

/-- Run a command; gives what it prints. -/
def run (reader : SyntaxReader) (invocation : Invocation) (now : Instant) : Run String := do
  let store ← Run.openStore invocation.root
  match invocation.command with
  | .index language project => Run.index reader store language project now
  | .find query knowledge limit =>
      let context : Search.Context := ⟨store.settings.search, now⟩
      if knowledge then Run.findLearnings store context query limit
      else Run.findModules store context query limit
  | .impact module => Run.impact store module
  | .extract selection name snapshots => Run.extract store selection ⟨name, snapshots⟩ now
  | .plan feature target => Run.plan store invocation.registry feature target now
  | .learn request => Run.learn store request now
  | .refresh module => Run.refresh store module now
  | .stale => Run.stale store now
  | .migrate => Run.migrate store now
  | .clear => Run.clear store

/-- The paths whose files a command may look at, as far as its arguments tell. -/
def places (invocation : Invocation) : List String := invocation.root :: invocation.registry.toList

/-- The root of the project that a feature is planned for, as far as the disk tells. -/
def targetRoot? (invocation : Invocation) (disk : Disk) : Option String :=
  match invocation.command, invocation.registry with
  | .plan _ target, some path => do
      let registry ← (Run.readRegistry path disk).toOption
      let entry ← (registry.project target).toOption
      return entry.root
  | _, _ => none

end Invocation

/-- What a user sees of a run: the text printed, the text of a failure, and the exit code. -/
structure Outcome where
  output : String
  failure : Option String
  exit : Nat
deriving DecidableEq, Repr

namespace Outcome

/-- The name and version that are printed when they are asked for. -/
def versionText : String := "scion 0.1.0"

/-- What arguments come to when they start no command. -/
def ofStop : Command.Stop → Outcome
  | .help => ⟨Run.line usageText, none, 0⟩
  | .version => ⟨Run.line versionText, none, 0⟩
  | .misuse => ⟨"", some usageText, 2⟩

/-- What a finished run comes to. -/
def ofResult (wording : Wording) : Except Command.Failure String → Outcome
  | .ok output => ⟨output, none, 0⟩
  | .error failure => ⟨"", some (failure.report wording), 1⟩

end Outcome

/-- Run the program with arguments on a disk. -/
def runArguments (libraries : Libraries) (arguments : List String) (disk : Disk)
    (now : Instant) : Outcome × Disk :=
  match Invocation.ofArguments arguments with
  | .error stop => (.ofStop stop, disk)
  | .ok invocation =>
      let (result, changed) := (ExceptT.run (invocation.run libraries.reader now)).run disk
      (.ofResult libraries.wording result, changed)

end CodeAtlas
