import CodeAtlas.Proofs.Json.Read
import CodeAtlas.Proofs.Knowledge.Document
import CodeAtlas.Proofs.Results

/-!
# Knowledge that was read

Knowledge that is decoded from a text can be written again: its numbers have the widths of their
fields and its times are of the calendar.  Only a confidence may be too large for single
precision, which no document can hold.
-/

namespace CodeAtlas

namespace Json

variable {α : Type} {value : Json} {names : List String} {record : Record} {name : String}
  {decode : Json → Option α} {decoded default : α}

/-! ## Decoding -/

/-- A record whose fields are as texts hold them. -/
def Record.IsRead (record : Record) : Prop := ∀ field ∈ record.fields, field.2.IsRead

theorem isRead_record? (read : value.IsRead) (isRecord : value.record? names = some record) :
    record.IsRead := by
  unfold record? at isRecord
  split at isRecord
  next members =>
    extract_lets at isRecord
    split at isRecord
    next =>
      cases isRecord
      cases read with
      | object all => exact fun member isMember => all member (List.mem_filter.mp isMember).1
    next => cases isRecord
  next items =>
    split at isRecord
    next =>
      cases isRecord
      cases read with
      | array all => exact fun field isField => all field.2 (List.of_mem_zip isField).2
    next => cases isRecord
  next => cases isRecord

namespace Record

theorem IsRead.of_lookup (read : record.IsRead) (found : record.fields.lookup name = some value) :
    value.IsRead := by
  obtain ⟨before, after, split, -⟩ := List.lookup_eq_some_iff.mp found
  exact read (name, value) (split ▸ by simp)

/-- A required field is decoded from a value as texts hold it. -/
theorem IsRead.required (read : record.IsRead) (found : record.required name decode = some decoded) :
    ∃ value : Json, value.IsRead ∧ decode value = some decoded := by
  obtain ⟨value, isField, isDecoded⟩ := Option.bind_eq_some_iff.mp found
  exact ⟨value, read.of_lookup isField, isDecoded⟩

/-- A field is decoded from its value, or it has the default. -/
theorem defaulted_cases (found : record.defaulted name default decode = some decoded) :
    decoded = default ∨
      ∃ value, record.fields.lookup name = some value ∧ decode value = some decoded := by
  unfold Record.defaulted at found
  split at found
  next value isField => exact .inr ⟨value, isField, found⟩
  next => exact .inl (Option.some.inj found).symm

/-- What holds of a default and of whatever is decoded holds of a field. -/
theorem IsRead.defaulted (holds : α → Prop) (read : record.IsRead)
    (found : record.defaulted name default decode = some decoded) (begins : holds default)
    (decodes : ∀ {value : Json} {decoded}, value.IsRead → decode value = some decoded →
      holds decoded) : holds decoded := by
  obtain rfl | ⟨value, isField, isDecoded⟩ := defaulted_cases found
  · exact begins
  · exact decodes (read.of_lookup isField) isDecoded

end Record

theorem lt_of_asNat32? {number : Nat} (found : value.asNat32? = some number) :
    number < 2 ^ 32 := by
  unfold asNat32? asNatBelow? at found
  split at found
  next whole =>
    split at found
    next bounds =>
      cases found
      rw [Nat.pow_eq] at bounds
      omega
    next => cases found
  next => cases found

theorem isProper_of_asSingle? {number : Binary32} (read : value.IsRead)
    (found : value.asSingle? = some number) : number.IsProper := by
  unfold asSingle? at found
  split at found
  next => exact Option.some.inj found ▸ Ieee.isProper_ofInt (by decide) _
  next => exact Option.some.inj found ▸ Ieee.isProper_convert (by decide) _
  next =>
    cases read with
    | number read => exact read.elim
  next => cases found

theorem isRead_of_asList? {items : List α} (read : value.IsRead)
    (found : value.asList? decode = some items) :
    ∀ item ∈ items, ∃ value : Json, value.IsRead ∧ decode value = some item := by
  unfold asList? at found
  split at found
  next values =>
    cases read with
    | array all =>
        intro item member
        obtain ⟨source, sourceMember, isItem⟩ := exists_item_of_mapM_eq_some found member
        exact ⟨source, all source sourceMember, isItem⟩
  next => cases found

/-- Each item of a map is decoded from a member of an object. -/
theorem exists_member_of_asKeyed? {map : Keyed α} (found : value.asKeyed? decode = some map) :
    ∀ item ∈ map.values, ∃ members, value = .object members ∧
      ∃ member ∈ members, decode member.2 = some item := by
  unfold asKeyed? at found
  split at found
  next members =>
    obtain ⟨entries, decodedAll, rfl⟩ := Option.map_eq_some_iff.mp found
    intro item member
    obtain ⟨key, isEntry⟩ := Keyed.mem_values_iff.mp member
    have inEntries := Keyed.mem_of_mem_ofList (Keyed.get?_eq_some_iff.mp isEntry)
    obtain ⟨source, sourceMember, isItem⟩ := exists_item_of_mapM_eq_some decodedAll inEntries
    obtain ⟨_, isDecoded, same⟩ := Option.map_eq_some_iff.mp isItem
    cases same
    exact ⟨members, rfl, source, sourceMember, isDecoded⟩
  next => cases found

theorem isRead_of_asKeyed? {map : Keyed α} (read : value.IsRead)
    (found : value.asKeyed? decode = some map) :
    ∀ item ∈ map.values, ∃ value : Json, value.IsRead ∧ decode value = some item := by
  intro item isItem
  obtain ⟨members, rfl, member, isMember, isDecoded⟩ := exists_member_of_asKeyed? found item isItem
  cases read with
  | object all => exact ⟨member.2, all member isMember, isDecoded⟩

end Json

open Json

variable {value : Json} {now : Instant}

/-! ## Parts of knowledge -/

theorem Instant.isValid_of_ofJson? {instant : Instant}
    (found : Instant.ofJson? value = some instant) : instant.IsValid := by
  obtain ⟨text, -, isInstant⟩ := Option.bind_eq_some_iff.mp found
  exact isValid_of_ofText? isInstant

/-- What holds of whatever is decoded holds of an optional value. -/
theorem Json.Record.forall_of_orNull {α : Type} {decode : Json → Option α} (holds : α → Prop)
    {found : Option α} (isFound : orNull decode value = some found)
    (decodes : ∀ {decoded}, decode value = some decoded → holds decoded) :
    ∀ decoded ∈ found, holds decoded := by
  unfold orNull at isFound
  split at isFound
  next => cases isFound; simp
  next =>
    obtain ⟨decoded, isDecoded, rfl⟩ := Option.map_eq_some_iff.mp isFound
    rintro _ ⟨⟩
    exact decodes isDecoded

theorem LineRange.bounds_of_ofJson? {range : LineRange} (read : value.IsRead)
    (found : LineRange.ofJson? value = some range) : range.start < 2 ^ 32 ∧ range.stop < 2 ^ 32 := by
  obtain ⟨record, isRecord, found⟩ := Option.bind_eq_some_iff.mp found
  have fields := isRead_record? read isRecord
  obtain ⟨start, isStart, found⟩ := Option.bind_eq_some_iff.mp found
  obtain ⟨stop, isStop, found⟩ := Option.bind_eq_some_iff.mp found
  cases found
  obtain ⟨_, -, first⟩ := fields.required isStart
  obtain ⟨_, -, last⟩ := fields.required isStop
  exact ⟨lt_of_asNat32? first, lt_of_asNat32? last⟩

theorem CodeReference.isRepresentable_of_ofJson? {reference : CodeReference} (read : value.IsRead)
    (found : CodeReference.ofJson? value = some reference) : reference.IsRepresentable := by
  obtain ⟨record, isRecord, found⟩ := Option.bind_eq_some_iff.mp found
  have fields := isRead_record? read isRecord
  obtain ⟨path, -, found⟩ := Option.bind_eq_some_iff.mp found
  obtain ⟨hash, -, found⟩ := Option.bind_eq_some_iff.mp found
  obtain ⟨modified, isTime, found⟩ := Option.bind_eq_some_iff.mp found
  obtain ⟨lines, areLines, found⟩ := Option.bind_eq_some_iff.mp found
  cases found
  obtain ⟨_, -, isInstant⟩ := fields.required isTime
  refine ⟨Instant.isValid_of_ofJson? isInstant, ?_⟩
  refine fields.defaulted (fun lines => ∀ range ∈ lines, range.start < 2 ^ 32 ∧
    range.stop < 2 ^ 32) areLines (by simp) fun isRead isLines => ?_
  exact Record.forall_of_orNull _ isLines fun isRange =>
    LineRange.bounds_of_ofJson? isRead isRange

/-- The version of a learning that is decoded fits its 32 bits. -/
theorem Learning.version_lt_of_ofJson? {learning : Learning}
    (found : Learning.ofJson? now value = some learning) : learning.version < 2 ^ 32 := by
  obtain ⟨record, -, found⟩ := Option.bind_eq_some_iff.mp found
  obtain ⟨path, -, found⟩ := Option.bind_eq_some_iff.mp found
  obtain ⟨summary, -, found⟩ := Option.bind_eq_some_iff.mp found
  obtain ⟨purpose, -, found⟩ := Option.bind_eq_some_iff.mp found
  obtain ⟨functions, -, found⟩ := Option.bind_eq_some_iff.mp found
  obtain ⟨parameters, -, found⟩ := Option.bind_eq_some_iff.mp found
  obtain ⟨gotchas, -, found⟩ := Option.bind_eq_some_iff.mp found
  obtain ⟨dependencies, -, found⟩ := Option.bind_eq_some_iff.mp found
  obtain ⟨target, -, found⟩ := Option.bind_eq_some_iff.mp found
  obtain ⟨source, -, found⟩ := Option.bind_eq_some_iff.mp found
  obtain ⟨confidence, -, found⟩ := Option.bind_eq_some_iff.mp found
  obtain ⟨version, isVersion, found⟩ := Option.bind_eq_some_iff.mp found
  obtain ⟨learned, -, found⟩ := Option.bind_eq_some_iff.mp found
  obtain ⟨updated, -, found⟩ := Option.bind_eq_some_iff.mp found
  cases found
  obtain rfl | ⟨_, -, number⟩ := Record.defaulted_cases isVersion
  · exact Nat.one_lt_two_pow (by decide)
  · exact lt_of_asNat32? number

theorem Learning.isRepresentable_of_ofJson? {learning : Learning} (read : value.IsRead)
    (valid : now.IsValid) (found : Learning.ofJson? now value = some learning) :
    learning.IsRepresentable := by
  have counted := version_lt_of_ofJson? found
  obtain ⟨record, isRecord, found⟩ := Option.bind_eq_some_iff.mp found
  have fields := isRead_record? read isRecord
  obtain ⟨path, -, found⟩ := Option.bind_eq_some_iff.mp found
  obtain ⟨summary, -, found⟩ := Option.bind_eq_some_iff.mp found
  obtain ⟨purpose, -, found⟩ := Option.bind_eq_some_iff.mp found
  obtain ⟨functions, -, found⟩ := Option.bind_eq_some_iff.mp found
  obtain ⟨parameters, -, found⟩ := Option.bind_eq_some_iff.mp found
  obtain ⟨gotchas, -, found⟩ := Option.bind_eq_some_iff.mp found
  obtain ⟨dependencies, -, found⟩ := Option.bind_eq_some_iff.mp found
  obtain ⟨target, -, found⟩ := Option.bind_eq_some_iff.mp found
  obtain ⟨source, isSource, found⟩ := Option.bind_eq_some_iff.mp found
  obtain ⟨confidence, isConfidence, found⟩ := Option.bind_eq_some_iff.mp found
  obtain ⟨version, -, found⟩ := Option.bind_eq_some_iff.mp found
  obtain ⟨learned, isLearned, found⟩ := Option.bind_eq_some_iff.mp found
  obtain ⟨updated, isUpdated, found⟩ := Option.bind_eq_some_iff.mp found
  cases found
  have one : (Ieee.ofNat .single 1).IsProper := Ieee.isProper_ofNat (by decide) 1
  exact {
    confidence := fields.defaulted Ieee.IsProper isConfidence one isProper_of_asSingle?
    version := counted
    sourceRef := fields.defaulted
      (fun source => ∀ reference ∈ source, reference.IsRepresentable) isSource (by simp)
      fun isRead isSource => Record.forall_of_orNull CodeReference.IsRepresentable
        isSource fun isReference => CodeReference.isRepresentable_of_ofJson? isRead isReference
    learnedAt := fields.defaulted Instant.IsValid isLearned valid fun _ => Instant.isValid_of_ofJson?
    updatedAt := fields.defaulted Instant.IsValid isUpdated valid fun _ => Instant.isValid_of_ofJson? }

theorem Decision.isValid_of_ofJson? {decision : Decision} (read : value.IsRead)
    (found : Decision.ofJson? value = some decision) : decision.decidedAt.IsValid := by
  obtain ⟨record, isRecord, found⟩ := Option.bind_eq_some_iff.mp found
  obtain ⟨rationale, -, found⟩ := Option.bind_eq_some_iff.mp found
  obtain ⟨modules, -, found⟩ := Option.bind_eq_some_iff.mp found
  obtain ⟨time, isTime, found⟩ := Option.bind_eq_some_iff.mp found
  cases found
  obtain ⟨_, -, isInstant⟩ := (isRead_record? read isRecord).required isTime
  exact Instant.isValid_of_ofJson? isInstant

theorem RunRecord.isValid_of_ofJson? {run : RunRecord} (read : value.IsRead)
    (found : RunRecord.ofJson? value = some run) : run.at_.IsValid := by
  obtain ⟨record, isRecord, found⟩ := Option.bind_eq_some_iff.mp found
  obtain ⟨kind, -, found⟩ := Option.bind_eq_some_iff.mp found
  obtain ⟨time, isTime, found⟩ := Option.bind_eq_some_iff.mp found
  obtain ⟨detail, -, found⟩ := Option.bind_eq_some_iff.mp found
  cases found
  obtain ⟨_, -, isInstant⟩ := (isRead_record? read isRecord).required isTime
  exact Instant.isValid_of_ofJson? isInstant

namespace Knowledge

variable {knowledge : Knowledge}

/-- Knowledge that is decoded can be written. -/
theorem isRepresentable_of_ofJson? (read : value.IsRead) (valid : now.IsValid)
    (found : ofJson? now value = some knowledge) : knowledge.IsRepresentable := by
  obtain ⟨record, isRecord, found⟩ := Option.bind_eq_some_iff.mp found
  have fields := isRead_record? read isRecord
  obtain ⟨project, -, found⟩ := Option.bind_eq_some_iff.mp found
  obtain ⟨version, isVersion, found⟩ := Option.bind_eq_some_iff.mp found
  obtain ⟨saved, isSaved, found⟩ := Option.bind_eq_some_iff.mp found
  obtain ⟨learnings, areLearnings, found⟩ := Option.bind_eq_some_iff.mp found
  obtain ⟨decisions, areDecisions, found⟩ := Option.bind_eq_some_iff.mp found
  obtain ⟨patterns, -, found⟩ := Option.bind_eq_some_iff.mp found
  obtain ⟨runs, areRuns, found⟩ := Option.bind_eq_some_iff.mp found
  cases found
  obtain ⟨_, -, number⟩ := fields.required isVersion
  obtain ⟨_, -, time⟩ := fields.required isSaved
  refine ⟨lt_of_asNat32? number, Instant.isValid_of_ofJson? time, ?_, ?_, ?_⟩
  · refine fields.defaulted (fun map => ∀ learning ∈ map.values, learning.IsRepresentable)
      areLearnings (by simp [Keyed.values]) fun isRead isMap learning member => ?_
    obtain ⟨_, learningRead, isLearning⟩ := isRead_of_asKeyed? isRead isMap learning member
    exact Learning.isRepresentable_of_ofJson? learningRead valid isLearning
  · refine fields.defaulted (fun items => ∀ decision ∈ items, decision.decidedAt.IsValid)
      areDecisions (by simp) fun isRead isList decision member => ?_
    obtain ⟨_, decisionRead, isDecision⟩ := isRead_of_asList? isRead isList decision member
    exact Decision.isValid_of_ofJson? decisionRead isDecision
  · refine fields.defaulted (fun items => ∀ run ∈ items, run.at_.IsValid)
      areRuns (by simp) fun isRead isList run member => ?_
    obtain ⟨_, runRead, isRun⟩ := isRead_of_asList? isRead isList run member
    exact RunRecord.isValid_of_ofJson? runRead isRun

end Knowledge

end CodeAtlas
