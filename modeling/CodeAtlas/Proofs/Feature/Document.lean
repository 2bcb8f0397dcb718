import CodeAtlas.Feature
import CodeAtlas.Proofs.Graph.Document

/-!
# The documents of features and plans

A feature or a plan that is written is read back as it was, whichever parts are present.
-/

namespace CodeAtlas

open Json

variable {carry : Json → Json}

/-! ## The status of an ordering -/

theorem Json.lookup_filter_ne {α : Type} {entries : List (String × α)} {name other : String}
    (different : name ≠ other) :
    (entries.filter fun entry => entry.1 != other).lookup name = entries.lookup name := by
  induction entries with
  | nil => rfl
  | cons entry rest hypothesis =>
      rw [List.filter_cons]
      split
      next => rw [Keyed.lookup_cons_eq_ite, Keyed.lookup_cons_eq_ite, hypothesis]
      next dropped =>
        have same : entry.1 = other := by simpa using dropped
        rw [Keyed.lookup_cons_eq_ite, if_neg (same ▸ different), hypothesis]

/-- What is carried of members that are readable is readable. -/
theorem Json.Carries.isReadable {members others : List (String × Json)} (carries : Carries carry)
    (distinct : (members.map (·.1)).Nodup)
    (readable : ∀ member ∈ members, (carry member.2).isReadable = true)
    (same : carry (.object members) = .object others) : (Json.object others).isReadable = true := by
  obtain ⟨found, isFound, foundDistinct, lookups⟩ := carries.object distinct
  cases same.symm.trans isFound
  refine membersReadable_iff.mpr fun member isMember => ?_
  have known := lookups member.1
  rw [Carries.lookup_eq_some_of_mem foundDistinct isMember] at known
  obtain ⟨value, isValue, isCarried⟩ := Option.map_eq_some_iff.mp known.symm
  obtain ⟨before, after, split, -⟩ := List.lookup_eq_some_iff.mp isValue
  exact isCarried ▸ readable (member.1, value) (split ▸ by simp)

namespace Ordering.Status

/-- The members of the object that a status is written as. -/
def members : Status → List (String × Json)
  | .complete => [("status", .string "complete")]
  | .degraded appended => [("status", .string "degraded"), ("appended", .ofStrings appended)]

theorem toJson_eq (status : Status) : status.toJson = .object status.members := by
  cases status <;> rfl

theorem distinct_members (status : Status) : (status.members.map (·.1)).Nodup := by
  cases status <;> simp [members]

theorem isReadable_carry (carries : Carries carry) {status : Status} :
    ∀ member ∈ status.members, (carry member.2).isReadable = true := by
  have texts (appended : List String) : (carry (.ofStrings appended)).isReadable = true := by
    rw [ofStrings, carries.array]
    refine itemsReadable_iff.mpr fun item member => ?_
    obtain ⟨value, isValue, rfl⟩ := List.mem_map.mp member
    obtain ⟨text, -, rfl⟩ := List.mem_map.mp isValue
    rw [carries.string]
    rfl
  have text (name : String) : (carry (.string name)).isReadable = true := by
    rw [carries.string]
    rfl
  cases status with
  | complete => simp [members, text]
  | degraded appended => simp [members, text, texts]

theorem ofJson?_carry (carries : Carries carry) (status : Status) :
    ofJson? (carry status.toJson) = some status := by
  obtain ⟨others, same, distinct, lookups⟩ := carries.object status.distinct_members
  obtain ⟨record, isRecord, holds⟩ := carries.record? status.members status.distinct_members
    ["status"]
  have readable := carries.isReadable status.distinct_members (isReadable_carry carries) same
  rw [same] at isRecord
  rw [toJson_eq, same, ofJson?, readable]
  cases status with
  | complete =>
      have tag := holds.required "status" (by simp) (by simp [members])
        (carries.asString? "complete")
      simp only [Bool.not_true, Bool.false_eq_true, if_false, Option.bind_eq_bind, isRecord,
        Option.bind_some, tag]
      rfl
  | degraded appended =>
      have tag := holds.required "status" (by simp) (by simp [members])
        (carries.asString? "degraded")
      let rest := others.filter fun member => member.1 != "status"
      have known : ((rest.filter fun member => ["appended"].contains member.1).map (·.1)).Nodup :=
        distinct.sublist ((List.filter_sublist.trans List.filter_sublist).map _)
      have value : others.lookup "appended" = some (carry (.ofStrings appended)) := by
        rw [lookups, members]
        rfl
      have list : ((object rest).record? ["appended"]).bind (·.required "appended" asStrings?) =
          some appended := by
        rw [Json.record?, if_pos known, Option.bind_some, Record.required,
          Carries.lookup_filter (by simp), lookup_filter_ne (by decide), value, Option.bind_some,
          carries.asStrings?]
      obtain ⟨inner, isInner, isList⟩ := Option.bind_eq_some_iff.mp list
      have notComplete : ("degraded" == "complete") = false := by decide
      simp only [Bool.not_true, Bool.false_eq_true, if_false, Option.bind_eq_bind, isRecord,
        Option.bind_some, tag, notComplete, beq_self_eq_true, if_true]
      rw [isInner, Option.bind_some, isList, Option.map_some]

end Ordering.Status

/-! ## Features -/

theorem ProvidedInterface.ofJson?_carry (carries : Carries carry) (provided : ProvidedInterface) :
    ProvidedInterface.ofJson? (carry provided.toJson) = some provided := by
  obtain ⟨record, isRecord, holds⟩ := carries.record?
    [("name", .string provided.name), ("type", provided.kind.toJson),
      ("signature", .string provided.signature)]
    (by simp) ["name", "type", "signature"]
  have name := holds.required "name" (by simp) (by simp) (carries.asString? provided.name)
  have kind := holds.required "type" (by simp) (by simp)
    (InterfaceKind.ofJson?_carry carries provided.kind)
  have signature := holds.required "signature" (by simp) (by simp)
    (carries.asString? provided.signature)
  rw [ProvidedInterface.ofJson?, ProvidedInterface.toJson, isRecord]
  simp only [Option.bind_eq_bind, Option.bind_some, name, kind, signature]
  rfl

namespace Feature

/-- All times are of the calendar and lines are counted in 32 bits. -/
structure IsRepresentable (feature : Feature) : Prop where
  extractedAt : feature.extractedAt.IsValid
  codeRefs : ∀ reference ∈ feature.codeRefs.values, reference.IsRepresentable

theorem requirementOfJson?_carry (carries : Carries carry) (package : String) :
    requirementOfJson? (carry (requirementJson package)) = some package := by
  obtain ⟨record, isRecord, holds⟩ := carries.record? [("package", .string package)] (by simp)
    ["package"]
  have name := holds.required "package" (by simp) (by simp) (carries.asString? package)
  rw [requirementOfJson?, requirementJson, isRecord]
  exact name

variable {feature : Feature}

/-- The members of the object that a feature is written as. -/
def members (feature : Feature) : List (String × Json) :=
  [("name", .string feature.name), ("source_project", .string feature.sourceProject),
    ("extracted_at", feature.extractedAt.toJson), ("primary", .string feature.primary),
    ("components", .ofStrings feature.components), ("ordering", feature.ordering.toJson),
    ("requires", .array (feature.requires.map requirementJson)),
    ("provides", .array (feature.provides.map ProvidedInterface.toJson)),
    ("code_refs", .ofKeyed CodeReference.toJson feature.codeRefs)] ++
  (feature.snapshots.map fun texts => ("snapshots", Json.ofKeyed .string texts)).toList

theorem toJson_eq (feature : Feature) : feature.toJson = .object feature.members := by
  rw [toJson, members]
  cases feature.snapshots <;> rfl

theorem distinct_members (feature : Feature) : (feature.members.map (·.1)).Nodup := by
  rw [members]
  cases feature.snapshots <;> simp

/-- A feature that is written is read back. -/
theorem ofJson?_carry (carries : Carries carry) (representable : feature.IsRepresentable) :
    ofJson? (carry feature.toJson) = some feature := by
  obtain ⟨record, isRecord, holds⟩ := carries.record? feature.members feature.distinct_members
    ["name", "source_project", "extracted_at", "primary", "components", "ordering", "requires",
      "provides", "code_refs", "snapshots"]
  have name := holds.required "name" (by simp) (by simp [members])
    (carries.asString? feature.name)
  have source := holds.required "source_project" (by simp) (by simp [members])
    (carries.asString? feature.sourceProject)
  have time := holds.required "extracted_at" (by simp) (by simp [members])
    (Instant.ofJson?_carry carries representable.extractedAt)
  have primary := holds.required "primary" (by simp) (by simp [members])
    (carries.asString? feature.primary)
  have components := holds.required "components" (by simp) (by simp [members])
    (carries.asStrings? feature.components)
  have ordering := holds.required "ordering" (by simp) (by simp [members])
    (Ordering.Status.ofJson?_carry carries feature.ordering)
  have requirements := holds.required "requires" (by simp) (by simp [members])
    (carries.asList? fun package (_ : package ∈ feature.requires) =>
      requirementOfJson?_carry carries package)
  have provides := holds.required "provides" (by simp) (by simp [members])
    (carries.asList? fun provided (_ : provided ∈ feature.provides) =>
      ProvidedInterface.ofJson?_carry carries provided)
  have references := holds.required "code_refs" (by simp) (by simp [members])
    (carries.asKeyed? fun reference member =>
      CodeReference.ofJson?_carry carries (representable.codeRefs reference member))
  have snapshots : record.defaulted "snapshots" none (Record.orNull Json.asStringMap?) =
      some feature.snapshots := by
    cases same : feature.snapshots with
    | none => exact holds.defaulted_absent _ _ (by simp) (by simp [members, same])
    | some texts =>
        have notNull : carry (.ofKeyed .string texts) ≠ .null := by
          rw [carries.keyed]
          exact Json.noConfusion
        exact holds.defaulted _ _ (by simp) (by simp [members, same])
          (Record.orNull_eq (carries.asStringMap? texts) notNull)
  rw [ofJson?, toJson_eq, isRecord]
  simp only [Option.bind_eq_bind, Option.bind_some, name, source, time, primary, components,
    ordering, requirements, provides, references, snapshots]
  rfl

end Feature

/-! ## Plans -/

theorem Mapping.ofJson?_carry (carries : Carries carry) (mapping : Mapping) :
    Mapping.ofJson? (carry mapping.toJson) = some mapping := by
  obtain ⟨record, isRecord, holds⟩ := carries.record?
    [("source_interface", .string mapping.sourceInterface),
      ("source_module", .string mapping.sourceModule),
      ("target_interface", .ofOption .string mapping.targetInterface),
      ("target_module", .ofOption .string mapping.targetModule),
      ("action", .string mapping.action.name)]
    (by simp)
    ["source_interface", "source_module", "target_interface", "target_module", "action"]
  have notNull (text : String) : carry (.string text) ≠ .null := by
    rw [carries.string]
    exact Json.noConfusion
  have action : (carry (.string mapping.action.name)).asChoice?.bind MappingAction.ofName? =
      some mapping.action := by
    rw [carries.asChoice?, Option.bind_some, MappingAction.ofName?_name]
  have source := holds.required "source_interface" (by simp) (by simp)
    (carries.asString? mapping.sourceInterface)
  have sourceModule := holds.required "source_module" (by simp) (by simp)
    (carries.asString? mapping.sourceModule)
  have target := holds.optional carries "target_interface" mapping.targetInterface (by simp)
    (by simp) carries.asString? notNull
  have targetModule := holds.optional carries "target_module" mapping.targetModule (by simp)
    (by simp) carries.asString? notNull
  have isAction : record.required "action" (fun value =>
      value.asChoice?.bind MappingAction.ofName?) = some mapping.action :=
    holds.required "action" (by simp) (by simp) action
  rw [Mapping.ofJson?, Mapping.toJson, isRecord]
  simp only [Option.bind_eq_bind, Option.bind_some, source, sourceModule, target, targetModule,
    isAction]
  rfl

theorem WiringTask.ofJson?_carry (carries : Carries carry) (task : WiringTask) :
    WiringTask.ofJson? (carry task.toJson) = some task := by
  obtain ⟨record, isRecord, holds⟩ := carries.record?
    [("file", .string task.file), ("action", .string WiringTask.actionName),
      ("detail", .string task.package)]
    (by simp) ["file", "action", "detail"]
  have file := holds.required "file" (by simp) (by simp) (carries.asString? task.file)
  have action := holds.required "action" (by simp) (by simp)
    (carries.asChoice? WiringTask.actionName)
  have package := holds.required "detail" (by simp) (by simp) (carries.asString? task.package)
  rw [WiringTask.ofJson?, WiringTask.toJson, isRecord]
  simp only [Option.bind_eq_bind, Option.bind_some, file, action, package, beq_self_eq_true,
    if_true]

/-- A plan that is written is read back. -/
theorem TransplantPlan.ofJson?_carry (carries : Carries carry) (plan : TransplantPlan) :
    TransplantPlan.ofJson? (carry plan.toJson) = some plan := by
  obtain ⟨record, isRecord, holds⟩ := carries.record?
    [("feature_name", .string plan.featureName), ("source_project", .string plan.sourceProject),
      ("target_project", .string plan.targetProject),
      ("mappings", .array (plan.mappings.map Mapping.toJson)),
      ("wiring", .array (plan.wiring.map WiringTask.toJson)),
      ("generation_order", .ofStrings plan.generationOrder),
      ("ordering", plan.ordering.toJson)]
    (by simp)
    ["feature_name", "source_project", "target_project", "mappings", "wiring",
      "generation_order", "ordering"]
  have name := holds.required "feature_name" (by simp) (by simp)
    (carries.asString? plan.featureName)
  have source := holds.required "source_project" (by simp) (by simp)
    (carries.asString? plan.sourceProject)
  have target := holds.required "target_project" (by simp) (by simp)
    (carries.asString? plan.targetProject)
  have mappings := holds.required "mappings" (by simp) (by simp)
    (carries.asList? fun mapping (_ : mapping ∈ plan.mappings) =>
      Mapping.ofJson?_carry carries mapping)
  have wiring := holds.required "wiring" (by simp) (by simp)
    (carries.asList? fun task (_ : task ∈ plan.wiring) => WiringTask.ofJson?_carry carries task)
  have order := holds.required "generation_order" (by simp) (by simp)
    (carries.asStrings? plan.generationOrder)
  have ordering := holds.required "ordering" (by simp) (by simp)
    (Ordering.Status.ofJson?_carry carries plan.ordering)
  rw [TransplantPlan.ofJson?, TransplantPlan.toJson, isRecord]
  simp only [Option.bind_eq_bind, Option.bind_some, name, source, target, mappings, wiring, order,
    ordering]
  rfl

end CodeAtlas
