import CodeAtlas.Proofs.Feature.Document
import CodeAtlas.Proofs.Json.Storable
import CodeAtlas.Proofs.Knowledge.Read

/-!
# Documents that are normal

A graph, a feature or a plan that is decoded from a text can be written, and what is written then
is read as the same value: reading and writing again changes nothing more.
-/

namespace CodeAtlas

open Json

variable {value : Json}

theorem Interface.line_lt_of_ofJson? {interface : Interface} (read : value.IsRead)
    (found : Interface.ofJson? value = some interface) : interface.line < 2 ^ 32 := by
  obtain ⟨record, isRecord, found⟩ := Option.bind_eq_some_iff.mp found
  obtain ⟨name, -, found⟩ := Option.bind_eq_some_iff.mp found
  obtain ⟨kind, -, found⟩ := Option.bind_eq_some_iff.mp found
  obtain ⟨signature, -, found⟩ := Option.bind_eq_some_iff.mp found
  obtain ⟨doc, -, found⟩ := Option.bind_eq_some_iff.mp found
  obtain ⟨members, -, found⟩ := Option.bind_eq_some_iff.mp found
  obtain ⟨line, isLine, found⟩ := Option.bind_eq_some_iff.mp found
  cases found
  obtain ⟨_, -, number⟩ := (isRead_record? read isRecord).required isLine
  exact lt_of_asNat32? number

theorem Module.isRepresentable_of_ofJson? {module : Module} (read : value.IsRead)
    (found : Module.ofJson? value = some module) : module.IsRepresentable := by
  obtain ⟨record, isRecord, found⟩ := Option.bind_eq_some_iff.mp found
  have fields := isRead_record? read isRecord
  obtain ⟨path, -, found⟩ := Option.bind_eq_some_iff.mp found
  obtain ⟨language, -, found⟩ := Option.bind_eq_some_iff.mp found
  obtain ⟨lines, areLines, found⟩ := Option.bind_eq_some_iff.mp found
  obtain ⟨summary, -, found⟩ := Option.bind_eq_some_iff.mp found
  obtain ⟨interfaces, areInterfaces, found⟩ := Option.bind_eq_some_iff.mp found
  obtain ⟨internal, -, found⟩ := Option.bind_eq_some_iff.mp found
  obtain ⟨external, -, found⟩ := Option.bind_eq_some_iff.mp found
  cases found
  obtain ⟨_, -, number⟩ := fields.required areLines
  obtain ⟨_, listRead, isList⟩ := fields.required areInterfaces
  refine ⟨lt_of_asNat32? number, fun interface member => ?_⟩
  obtain ⟨_, interfaceRead, isInterface⟩ := isRead_of_asList? listRead isList interface member
  exact Interface.line_lt_of_ofJson? interfaceRead isInterface

theorem Graph.isRepresentable_of_ofJson? {graph : Graph} (read : value.IsRead)
    (found : Graph.ofJson? value = some graph) : graph.IsRepresentable := by
  obtain ⟨record, isRecord, found⟩ := Option.bind_eq_some_iff.mp found
  have fields := isRead_record? read isRecord
  obtain ⟨project, -, found⟩ := Option.bind_eq_some_iff.mp found
  obtain ⟨version, isVersion, found⟩ := Option.bind_eq_some_iff.mp found
  obtain ⟨time, isTime, found⟩ := Option.bind_eq_some_iff.mp found
  obtain ⟨modules, areModules, found⟩ := Option.bind_eq_some_iff.mp found
  obtain ⟨edges, -, found⟩ := Option.bind_eq_some_iff.mp found
  cases found
  obtain ⟨_, -, number⟩ := fields.required isVersion
  obtain ⟨_, -, isInstant⟩ := fields.required isTime
  obtain ⟨_, mapRead, isMap⟩ := fields.required areModules
  refine ⟨lt_of_asNat32? number, Instant.isValid_of_ofJson? isInstant, fun module member => ?_⟩
  obtain ⟨_, moduleRead, isModule⟩ := isRead_of_asKeyed? mapRead isMap module member
  exact Module.isRepresentable_of_ofJson? moduleRead isModule

theorem Feature.isRepresentable_of_ofJson? {feature : Feature} (read : value.IsRead)
    (found : Feature.ofJson? value = some feature) : feature.IsRepresentable := by
  obtain ⟨record, isRecord, found⟩ := Option.bind_eq_some_iff.mp found
  have fields := isRead_record? read isRecord
  obtain ⟨name, -, found⟩ := Option.bind_eq_some_iff.mp found
  obtain ⟨source, -, found⟩ := Option.bind_eq_some_iff.mp found
  obtain ⟨time, isTime, found⟩ := Option.bind_eq_some_iff.mp found
  obtain ⟨primary, -, found⟩ := Option.bind_eq_some_iff.mp found
  obtain ⟨components, -, found⟩ := Option.bind_eq_some_iff.mp found
  obtain ⟨ordering, -, found⟩ := Option.bind_eq_some_iff.mp found
  obtain ⟨requirements, -, found⟩ := Option.bind_eq_some_iff.mp found
  obtain ⟨provides, -, found⟩ := Option.bind_eq_some_iff.mp found
  obtain ⟨references, areReferences, found⟩ := Option.bind_eq_some_iff.mp found
  obtain ⟨snapshots, -, found⟩ := Option.bind_eq_some_iff.mp found
  cases found
  obtain ⟨_, -, isInstant⟩ := fields.required isTime
  obtain ⟨_, mapRead, isMap⟩ := fields.required areReferences
  refine ⟨Instant.isValid_of_ofJson? isInstant, fun reference member => ?_⟩
  obtain ⟨_, referenceRead, isReference⟩ := isRead_of_asKeyed? mapRead isMap reference member
  exact CodeReference.isRepresentable_of_ofJson? referenceRead isReference

/-! ## Reading back -/

/-- A kind of documents that are read back as they were written: whatever is admitted is read back,
from its value or from its text.  What is decoded from any text is admitted, and the form in which
it is written stays as it is. -/
structure Json.ReadsBack {α : Type} (parse : String → Option Json) (encode : α → Json)
    (decode : Json → Option α) (admits : α → Prop) : Prop where
  decode_encode : ∀ value, admits value → decode (encode value) = some value
  decode_pretty : ∀ value, admits value → (parse (encode value).pretty).bind decode = some value
  normal : ∀ text value, (parse text).bind decode = some value →
    admits value ∧ (parse (encode value).pretty).bind decode = some value

/-- Where what is admitted is read back, it is enough that what is decoded is admitted. -/
theorem Json.ReadsBack.of_admits {α : Type} {parse : String → Option Json} {encode : α → Json}
    {decode : Json → Option α} {admits : α → Prop}
    (decode_encode : ∀ value, admits value → decode (encode value) = some value)
    (decode_pretty : ∀ value, admits value →
      (parse (encode value).pretty).bind decode = some value)
    (admitted : ∀ text value, (parse text).bind decode = some value → admits value) :
    ReadsBack parse encode decode admits :=
  ⟨decode_encode, decode_pretty, fun text value decoded =>
    ⟨admitted text value decoded, decode_pretty value (admitted text value decoded)⟩⟩

theorem Graph.readsBack :
    ReadsBack Json.ofText Graph.toJson Graph.ofJson? Graph.IsRepresentable := by
  refine .of_admits (fun graph representable => ?_)
    (fun graph representable => Graph.ofJson?_ofText_pretty representable)
    fun text graph decoded => ?_
  · have carried := Graph.ofJson?_carry carries_id representable
    rwa [id_eq] at carried
  · obtain ⟨value, isValue, isGraph⟩ := Option.bind_eq_some_iff.mp decoded
    exact Graph.isRepresentable_of_ofJson? (isStorable_of_ofText isValue).isRead isGraph

theorem Feature.readsBack :
    ReadsBack Json.ofText? Feature.toJson Feature.ofJson? Feature.IsRepresentable := by
  refine .of_admits (fun feature representable => ?_) (fun feature representable => ?_)
    fun text feature decoded => ?_
  · have carried := Feature.ofJson?_carry carries_id representable
    rwa [id_eq] at carried
  · rw [Json.ofText?_pretty, Option.bind_some]
    exact Feature.ofJson?_carry carries_reread representable
  · obtain ⟨value, isValue, isFeature⟩ := Option.bind_eq_some_iff.mp decoded
    exact Feature.isRepresentable_of_ofJson? (isRead_of_ofText? isValue) isFeature

theorem TransplantPlan.readsBack :
    ReadsBack Json.ofText? TransplantPlan.toJson TransplantPlan.ofJson? fun _ => True := by
  refine .of_admits (fun plan _ => ?_) (fun plan _ => ?_) fun _ _ _ => trivial
  · have carried := TransplantPlan.ofJson?_carry carries_id plan
    rwa [id_eq] at carried
  · rw [Json.ofText?_pretty, Option.bind_some]
    exact TransplantPlan.ofJson?_carry carries_reread plan

end CodeAtlas
