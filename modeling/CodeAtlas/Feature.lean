import CodeAtlas.CodeReference
import CodeAtlas.Graph.Ordering

/-!
# Features and transplant plans

A feature is a bundle of modules that is closed under dependencies and meant to move together.
A plan says how a feature lands in another project.
-/

namespace CodeAtlas

/-- An interface that a feature provides. -/
structure ProvidedInterface where
  name : String
  kind : InterfaceKind
  signature : String
deriving DecidableEq, Repr

namespace ProvidedInterface

def ofInterface (interface : Interface) : ProvidedInterface :=
  ⟨interface.name, interface.kind, interface.signature⟩

def toJson (provided : ProvidedInterface) : Json :=
  .object [("name", .string provided.name), ("type", provided.kind.toJson),
    ("signature", .string provided.signature)]

def ofJson? (value : Json) : Option ProvidedInterface := do
  let record ← value.record? ["name", "type", "signature"]
  return {
    name := ← record.required "name" Json.asString?
    kind := ← record.required "type" InterfaceKind.ofJson?
    signature := ← record.required "signature" Json.asString? }

end ProvidedInterface

/-- A bundle of modules around a primary one. -/
structure Feature where
  name : String
  sourceProject : String
  extractedAt : Instant
  primary : String
  /-- Dependencies first, unless the ordering is degraded. -/
  components : List String
  ordering : Ordering.Status
  /-- The external packages that the components need. -/
  requires : List String
  provides : List ProvidedInterface
  codeRefs : Keyed CodeReference
  /-- The texts of the components, if they were asked for. -/
  snapshots : Option (Keyed String)
deriving DecidableEq

namespace Feature

def contains (feature : Feature) (path : String) : Bool := feature.components.contains path

/-- The first position of a component. -/
def position? (feature : Feature) (path : String) : Option Nat :=
  feature.components.findIdx? (· == path)

def requirementJson (package : String) : Json := .object [("package", .string package)]

def requirementOfJson? (value : Json) : Option String := do
  (← value.record? ["package"]).required "package" Json.asString?

def toJson (feature : Feature) : Json :=
  .object ([("name", .string feature.name), ("source_project", .string feature.sourceProject),
      ("extracted_at", feature.extractedAt.toJson), ("primary", .string feature.primary),
      ("components", .ofStrings feature.components), ("ordering", feature.ordering.toJson),
      ("requires", .array (feature.requires.map requirementJson)),
      ("provides", .array (feature.provides.map ProvidedInterface.toJson)),
      ("code_refs", .ofKeyed CodeReference.toJson feature.codeRefs)] ++
    match feature.snapshots with
    | some texts => [("snapshots", .ofKeyed .string texts)]
    | none => [])

def ofJson? (value : Json) : Option Feature := do
  let record ← value.record? ["name", "source_project", "extracted_at", "primary", "components",
    "ordering", "requires", "provides", "code_refs", "snapshots"]
  return {
    name := ← record.required "name" Json.asString?
    sourceProject := ← record.required "source_project" Json.asString?
    extractedAt := ← record.required "extracted_at" Instant.ofJson?
    primary := ← record.required "primary" Json.asString?
    components := ← record.required "components" Json.asStrings?
    ordering := ← record.required "ordering" Ordering.Status.ofJson?
    requires := ← record.required "requires" (Json.asList? requirementOfJson?)
    provides := ← record.required "provides" (Json.asList? ProvidedInterface.ofJson?)
    codeRefs := ← record.required "code_refs" (Json.asKeyed? CodeReference.ofJson?)
    snapshots := ← record.defaulted "snapshots" none (Json.Record.orNull Json.asStringMap?) }

end Feature

/-- What becomes of an interface in the target project. -/
inductive MappingAction
  /-- The target has an interface of that name. -/
  | adapt
  /-- Nothing matches. -/
  | create
  /-- Not carried over. -/
  | skip
deriving DecidableEq, Repr

namespace MappingAction

def all : List MappingAction := [.adapt, .create, .skip]

def name : MappingAction → String
  | .adapt => "ADAPT"
  | .create => "CREATE"
  | .skip => "SKIP"

def ofName? (name : String) : Option MappingAction := all.find? (·.name == name)

theorem ofName?_name (action : MappingAction) : ofName? action.name = some action := by
  cases action <;> cbv

end MappingAction

/-- Where an interface of a feature goes. -/
structure Mapping where
  sourceInterface : String
  sourceModule : String
  targetInterface : Option String
  targetModule : Option String
  action : MappingAction
deriving DecidableEq, Repr

namespace Mapping

def toJson (mapping : Mapping) : Json :=
  .object [("source_interface", .string mapping.sourceInterface),
    ("source_module", .string mapping.sourceModule),
    ("target_interface", .ofOption .string mapping.targetInterface),
    ("target_module", .ofOption .string mapping.targetModule),
    ("action", .string mapping.action.name)]

def ofJson? (value : Json) : Option Mapping := do
  let record ← value.record?
    ["source_interface", "source_module", "target_interface", "target_module", "action"]
  return {
    sourceInterface := ← record.required "source_interface" Json.asString?
    sourceModule := ← record.required "source_module" Json.asString?
    targetInterface := ← record.optional "target_interface" Json.asString?
    targetModule := ← record.optional "target_module" Json.asString?
    action := ← record.required "action" fun value =>
      value.asChoice?.bind MappingAction.ofName? }

end Mapping

/-- A package that has to be added to a manifest of the target. -/
structure WiringTask where
  file : String
  package : String
deriving DecidableEq, Repr

namespace WiringTask

/-- The name of the only kind of task. -/
def actionName : String := "add_dependency"

def toJson (task : WiringTask) : Json :=
  .object [("file", .string task.file), ("action", .string actionName),
    ("detail", .string task.package)]

def ofJson? (value : Json) : Option WiringTask := do
  let record ← value.record? ["file", "action", "detail"]
  let file ← record.required "file" Json.asString?
  let action ← record.required "action" Json.asChoice?
  let package ← record.required "detail" Json.asString?
  if action == actionName then some ⟨file, package⟩ else none

end WiringTask

/-- How a feature lands in another project. -/
structure TransplantPlan where
  featureName : String
  sourceProject : String
  targetProject : String
  mappings : List Mapping
  wiring : List WiringTask
  generationOrder : List String
  ordering : Ordering.Status
deriving DecidableEq

namespace TransplantPlan

def toJson (plan : TransplantPlan) : Json :=
  .object [("feature_name", .string plan.featureName),
    ("source_project", .string plan.sourceProject),
    ("target_project", .string plan.targetProject),
    ("mappings", .array (plan.mappings.map Mapping.toJson)),
    ("wiring", .array (plan.wiring.map WiringTask.toJson)),
    ("generation_order", .ofStrings plan.generationOrder),
    ("ordering", plan.ordering.toJson)]

def ofJson? (value : Json) : Option TransplantPlan := do
  let record ← value.record? ["feature_name", "source_project", "target_project", "mappings",
    "wiring", "generation_order", "ordering"]
  return {
    featureName := ← record.required "feature_name" Json.asString?
    sourceProject := ← record.required "source_project" Json.asString?
    targetProject := ← record.required "target_project" Json.asString?
    mappings := ← record.required "mappings" (Json.asList? Mapping.ofJson?)
    wiring := ← record.required "wiring" (Json.asList? WiringTask.ofJson?)
    generationOrder := ← record.required "generation_order" Json.asStrings?
    ordering := ← record.required "ordering" Ordering.Status.ofJson? }

end TransplantPlan

end CodeAtlas
