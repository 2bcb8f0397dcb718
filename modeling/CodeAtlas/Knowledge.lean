import CodeAtlas.CodeReference
import CodeAtlas.Settings

/-!
# Knowledge about a project

What has been learned about the modules of a project, the decisions and patterns noted, and the
latest runs.  Each module has at most one learning, stored under its path; the history of runs
is a window that drops the oldest first.
-/

namespace CodeAtlas

/-- A note about one module. -/
structure Learning where
  modulePath : String
  summary : String
  purpose : String
  keyFunctions : Keyed String
  keyParameters : Keyed String
  gotchas : List String
  dependencies : List String
  transplantTarget : Option String
  sourceRef : Option CodeReference
  /-- From zero to one once the learning is stored. -/
  confidence : Binary32
  version : Nat
  learnedAt : Instant
  updatedAt : Instant
deriving DecidableEq

namespace Learning

/-- A learning of which nothing is said, made now. -/
def blank (now : Instant) : Learning :=
  ⟨"", "", "", .empty, .empty, [], [], none, none, .ofNat .single 1, 1, now, now⟩

/-- A confidence held between zero and one; what is not a number counts as zero. -/
def normalConfidence (confidence : Binary32) : Binary32 :=
  match confidence with
  | .notANumber _ => .zero
  | value => value.clamp .zero (.ofNat .single 1)

/-- The learning with a confidence between zero and one. -/
def normalize (learning : Learning) : Learning :=
  { learning with confidence := normalConfidence learning.confidence }

/-- A learning without a reference to its source never goes stale. -/
def isStale (learning : Learning) (disk : Disk) (root : String) : Bool :=
  match learning.sourceRef with
  | some reference => reference.isStale disk root
  | none => false

def toJson (learning : Learning) : Json :=
  .object ([("module_path", .string learning.modulePath), ("summary", .string learning.summary),
      ("purpose", .string learning.purpose),
      ("key_functions", .ofKeyed .string learning.keyFunctions),
      ("key_parameters", .ofKeyed .string learning.keyParameters),
      ("gotchas", .ofStrings learning.gotchas),
      ("dependencies", .ofStrings learning.dependencies)] ++
    (match learning.transplantTarget with
      | some target => [("transplant_target", .string target)]
      | none => []) ++
    (match learning.sourceRef with
      | some reference => [("source_ref", reference.toJson)]
      | none => []) ++
    [("confidence", .ofSingle learning.confidence), ("version", .ofNat learning.version),
      ("learned_at", learning.learnedAt.toJson), ("updated_at", learning.updatedAt.toJson)])

/-- Read a learning; a field that is absent is as in a blank learning made now. -/
def ofJson? (now : Instant) (value : Json) : Option Learning := do
  let record ← value.record? ["module_path", "summary", "purpose", "key_functions",
    "key_parameters", "gotchas", "dependencies", "transplant_target", "source_ref", "confidence",
    "version", "learned_at", "updated_at"]
  return {
    modulePath := ← record.defaulted "module_path" "" Json.asString?
    summary := ← record.defaulted "summary" "" Json.asString?
    purpose := ← record.defaulted "purpose" "" Json.asString?
    keyFunctions := ← record.defaulted "key_functions" .empty Json.asStringMap?
    keyParameters := ← record.defaulted "key_parameters" .empty Json.asStringMap?
    gotchas := ← record.defaulted "gotchas" [] Json.asStrings?
    dependencies := ← record.defaulted "dependencies" [] Json.asStrings?
    transplantTarget :=
      ← record.defaulted "transplant_target" none (Json.Record.orNull Json.asString?)
    sourceRef := ← record.defaulted "source_ref" none (Json.Record.orNull CodeReference.ofJson?)
    confidence := ← record.defaulted "confidence" (.ofNat .single 1) Json.asSingle?
    version := ← record.defaulted "version" 1 Json.asNat32?
    learnedAt := ← record.defaulted "learned_at" now Instant.ofJson?
    updatedAt := ← record.defaulted "updated_at" now Instant.ofJson? }

end Learning

/-- A decision about some modules. -/
structure Decision where
  rationale : String
  modules : List String
  decidedAt : Instant
deriving DecidableEq, Repr

namespace Decision

def toJson (decision : Decision) : Json :=
  .object [("rationale", .string decision.rationale), ("modules", .ofStrings decision.modules),
    ("decided_at", decision.decidedAt.toJson)]

def ofJson? (value : Json) : Option Decision := do
  let record ← value.record? ["rationale", "modules", "decided_at"]
  return {
    rationale := ← record.required "rationale" Json.asString?
    modules := ← record.required "modules" Json.asStrings?
    decidedAt := ← record.required "decided_at" Instant.ofJson? }

end Decision

/-- What a run did. -/
inductive RunKind
  | index
  | migrate
  | learn
  | refresh
  | extract
  | plan
deriving DecidableEq, Repr

namespace RunKind

def all : List RunKind := [.index, .migrate, .learn, .refresh, .extract, .plan]

def name : RunKind → String
  | .index => "index"
  | .migrate => "migrate"
  | .learn => "learn"
  | .refresh => "refresh"
  | .extract => "extract"
  | .plan => "plan"

def ofName? (name : String) : Option RunKind := all.find? (·.name == name)

theorem ofName?_name (kind : RunKind) : ofName? kind.name = some kind := by
  cases kind <;> cbv

def toJson (kind : RunKind) : Json := .string kind.name

def ofJson? (value : Json) : Option RunKind := do
  ofName? (← value.asChoice?)

end RunKind

/-- One run. -/
structure RunRecord where
  kind : RunKind
  at_ : Instant
  detail : String
deriving DecidableEq, Repr

namespace RunRecord

def toJson (record : RunRecord) : Json :=
  .object [("kind", record.kind.toJson), ("at", record.at_.toJson),
    ("detail", .string record.detail)]

def ofJson? (value : Json) : Option RunRecord := do
  let record ← value.record? ["kind", "at", "detail"]
  return {
    kind := ← record.required "kind" RunKind.ofJson?
    at_ := ← record.required "at" Instant.ofJson?
    detail := ← record.required "detail" Json.asString? }

end RunRecord

/-- Everything known about a project. -/
structure Knowledge where
  project : String
  version : Nat
  savedAt : Instant
  learnings : Keyed Learning
  decisions : List Decision
  patterns : Keyed String
  /-- The latest runs, oldest first. -/
  runs : List RunRecord
  /-- How many runs are kept; not part of the document. -/
  runLimit : Nat
deriving DecidableEq

namespace Knowledge

/-- The version of the document that knowledge is written in. -/
def documentVersion : Nat := 1

/-- Nothing known. -/
def new (project : String) (now : Instant) : Knowledge :=
  ⟨project, documentVersion, now, .empty, [], .empty, [], Settings.defaultRunHistory⟩

/-- The last items of a list. -/
def lastOf {α : Type} (count : Nat) (items : List α) : List α :=
  items.drop (items.length - count)

/-- Keep only as many runs as the limit allows. -/
def trimRuns (knowledge : Knowledge) : Knowledge :=
  { knowledge with runs := lastOf knowledge.runLimit knowledge.runs }

/-- Set how many runs are kept; at least one is. -/
def setRunLimit (knowledge : Knowledge) (limit : Nat) : Knowledge :=
  trimRuns { knowledge with runLimit := max limit 1 }

def learning? (knowledge : Knowledge) (path : String) : Option Learning :=
  knowledge.learnings.get? path

/-- Store a learning under the path of its module. -/
def putLearning (knowledge : Knowledge) (learning : Learning) : Knowledge :=
  { knowledge with learnings := knowledge.learnings.insert learning.modulePath learning }

/-- Record a learning of a module that has none. -/
def addLearning (knowledge : Knowledge) (learning : Learning) (now : Instant) :
    Except Problem Knowledge :=
  if knowledge.learnings.contains learning.modulePath then
    .error (.alreadyExists .learning learning.modulePath)
  else
    .ok (knowledge.putLearning
      { learning.normalize with version := 1, learnedAt := now, updatedAt := now })

/-- Versions are counted in 32 bits. -/
def nextVersion (version : Nat) : Nat := (version + 1) % Nat.pow 2 32

/-- Replace the learning of a module; gives the new version too. -/
def relearn (knowledge : Knowledge) (learning : Learning) (now : Instant) :
    Except Problem (Knowledge × Nat) :=
  match knowledge.learning? learning.modulePath with
  | none => .error (.notFound .learning learning.modulePath)
  | some previous =>
      let version := nextVersion previous.version
      .ok (knowledge.putLearning { learning.normalize with
        version, learnedAt := previous.learnedAt, updatedAt := now }, version)

/-- What came of refreshing a learning. -/
inductive RefreshOutcome
  | refreshed (version : Nat)
  | alreadyFresh
deriving DecidableEq, Repr

/-- The disk at the moments at which a file is looked at: its time and its content to check it, and
both again to capture it. -/
structure DiskViews where
  checkedTime : Disk
  checkedContent : Disk
  capturedTime : Disk
  capturedContent : Disk

/-- A disk that does not change. -/
def DiskViews.still (disk : Disk) : DiskViews := ⟨disk, disk, disk, disk⟩

/-- Capture the source of a stale learning anew, on a disk that may change meanwhile. -/
def refreshAcross (knowledge : Knowledge) (path : String) (views : DiskViews) (root : String)
    (now : Instant) : Except Problem (Knowledge × RefreshOutcome) :=
  match knowledge.learning? path with
  | none => .error (.notFound .learning path)
  | some learning =>
      match learning.sourceRef with
      | none => .ok (knowledge, .alreadyFresh)
      | some reference =>
          if (reference.checkBetween views.checkedTime views.checkedContent root).isStale then do
            let captured ← CodeReference.captureBetween views.capturedTime views.capturedContent
              root reference.path reference.lines
            let version := nextVersion learning.version
            let learnings := knowledge.learnings.insert path
              { learning with sourceRef := some captured, version, updatedAt := now }
            return ({ knowledge with learnings }, .refreshed version)
          else .ok (knowledge, .alreadyFresh)

/-- Capture the source of a stale learning anew. -/
def refresh (knowledge : Knowledge) (path : String) (disk : Disk) (root : String)
    (now : Instant) : Except Problem (Knowledge × RefreshOutcome) :=
  knowledge.refreshAcross path (.still disk) root now

def removeLearning (knowledge : Knowledge) (path : String) : Knowledge :=
  { knowledge with learnings := knowledge.learnings.erase path }

/-- Take over a learning unless its module has one; tells whether it was taken. -/
def adoptLearning (knowledge : Knowledge) (learning : Learning) : Knowledge × Bool :=
  if knowledge.learnings.contains learning.modulePath then (knowledge, false)
  else (knowledge.putLearning learning.normalize, true)

def isStale (knowledge : Knowledge) (path : String) (disk : Disk) (root : String) :
    Except Problem Bool :=
  match knowledge.learning? path with
  | some learning => .ok (learning.isStale disk root)
  | none => .error (.notFound .learning path)

/-- The stale learnings and the others, both in the order of their paths. -/
def partition (knowledge : Knowledge) (disk : Disk) (root : String) :
    List Learning × List Learning :=
  knowledge.learnings.values.partition (·.isStale disk root)

def recordDecision (knowledge : Knowledge) (rationale : String) (modules : List String)
    (now : Instant) : Knowledge :=
  { knowledge with decisions := knowledge.decisions ++ [⟨rationale, modules, now⟩] }

/-- The decisions that name a module. -/
def decisionsFor (knowledge : Knowledge) (path : String) : List Decision :=
  knowledge.decisions.filter (·.modules.contains path)

/-- Note a pattern; gives what its name stood for before. -/
def addPattern (knowledge : Knowledge) (name description : String) :
    Knowledge × Option String :=
  ({ knowledge with patterns := knowledge.patterns.insert name description },
    knowledge.patterns.get? name)

/-- Add a run to the history. -/
def recordRun (knowledge : Knowledge) (kind : RunKind) (detail : String) (now : Instant) :
    Knowledge :=
  trimRuns { knowledge with runs := knowledge.runs ++ [⟨kind, now, detail⟩] }

def toJson (knowledge : Knowledge) : Json :=
  .object [("project", .string knowledge.project), ("version", .ofNat knowledge.version),
    ("saved_at", knowledge.savedAt.toJson),
    ("learnings", .ofKeyed Learning.toJson knowledge.learnings),
    ("decisions", .array (knowledge.decisions.map Decision.toJson)),
    ("patterns", .ofKeyed .string knowledge.patterns),
    ("runs", .array (knowledge.runs.map RunRecord.toJson))]

def ofJson? (now : Instant) (value : Json) : Option Knowledge := do
  let record ← value.record?
    ["project", "version", "saved_at", "learnings", "decisions", "patterns", "runs"]
  return {
    project := ← record.required "project" Json.asString?
    version := ← record.required "version" Json.asNat32?
    savedAt := ← record.required "saved_at" Instant.ofJson?
    learnings := ← record.defaulted "learnings" .empty (Json.asKeyed? (Learning.ofJson? now))
    decisions := ← record.defaulted "decisions" [] (Json.asList? Decision.ofJson?)
    patterns := ← record.defaulted "patterns" .empty Json.asStringMap?
    runs := ← record.defaulted "runs" [] (Json.asList? RunRecord.ofJson?)
    runLimit := Settings.defaultRunHistory }

end Knowledge

end CodeAtlas
