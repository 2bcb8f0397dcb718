import CodeAtlas.Knowledge
import CodeAtlas.Proofs.Instant
import CodeAtlas.Proofs.Json.Carry

/-!
# The document of knowledge

Knowledge that is written is read back as it was, with the limit of runs that documents do not
keep.
-/

namespace CodeAtlas

open Json

variable {carry : Json → Json}

/-! ## Parts that a document can hold -/

/-- The time is one of the calendar and lines are counted in 32 bits. -/
structure CodeReference.IsRepresentable (reference : CodeReference) : Prop where
  modified : reference.modified.IsValid
  lines : ∀ range ∈ reference.lines, range.start < 2 ^ 32 ∧ range.stop < 2 ^ 32

/-- The times are of the calendar, the version has 32 bits, and the confidence is a value of single
precision. -/
structure Learning.IsRepresentable (learning : Learning) : Prop where
  confidence : learning.confidence.IsProper
  version : learning.version < 2 ^ 32
  sourceRef : ∀ reference ∈ learning.sourceRef, reference.IsRepresentable
  learnedAt : learning.learnedAt.IsValid
  updatedAt : learning.updatedAt.IsValid

theorem Instant.ofJson?_carry (carries : Carries carry) {instant : Instant}
    (valid : instant.IsValid) : Instant.ofJson? (carry instant.toJson) = some instant := by
  rw [Instant.ofJson?, Instant.toJson, carries.asString?, Option.bind_eq_bind, Option.bind_some,
    Instant.ofText?_text valid]

theorem LineRange.ofJson?_carry (carries : Carries carry) {range : LineRange}
    (start : range.start < 2 ^ 32) (stop : range.stop < 2 ^ 32) :
    LineRange.ofJson? (carry range.toJson) = some range := by
  obtain ⟨record, isRecord, holds⟩ := carries.record?
    [("start", .ofNat range.start), ("end", .ofNat range.stop)]
    (by simp) ["start", "end"]
  have first := holds.required "start" (by simp) (by simp) (carries.asNat32? start)
  have last := holds.required "end" (by simp) (by simp) (carries.asNat32? stop)
  rw [LineRange.ofJson?, LineRange.toJson, isRecord]
  simp only [Option.bind_eq_bind, Option.bind_some, first, last]
  rfl

/-- An object is not read as nothing. -/
theorem Json.Carries.object_ne_null (carries : Carries carry) {members : List (String × Json)}
    (distinct : (members.map (·.1)).Nodup) : carry (.object members) ≠ .null := by
  obtain ⟨others, same, -, -⟩ := carries.object distinct
  rw [same]
  exact Json.noConfusion

namespace CodeReference

/-- The members of the object that a reference is written as. -/
def members (reference : CodeReference) : List (String × Json) :=
  [("path", .string reference.path), ("hash", .string reference.hash),
    ("mtime", reference.modified.toJson)] ++
  (reference.lines.map fun range => ("lines", range.toJson)).toList

theorem toJson_eq (reference : CodeReference) : reference.toJson = .object reference.members := by
  rw [toJson, members]
  cases reference.lines <;> rfl

theorem distinct_members (reference : CodeReference) : (reference.members.map (·.1)).Nodup := by
  rw [members]
  cases reference.lines <;> simp

theorem ofJson?_carry (carries : Carries carry) {reference : CodeReference}
    (representable : reference.IsRepresentable) :
    ofJson? (carry reference.toJson) = some reference := by
  obtain ⟨record, isRecord, holds⟩ := carries.record? reference.members reference.distinct_members
    ["path", "hash", "mtime", "lines"]
  have path := holds.required "path" (by simp) (by simp [members])
    (carries.asString? reference.path)
  have hash := holds.required "hash" (by simp) (by simp [members])
    (carries.asString? reference.hash)
  have time := holds.required "mtime" (by simp) (by simp [members])
    (Instant.ofJson?_carry carries representable.modified)
  have lines : record.defaulted "lines" none (Record.orNull LineRange.ofJson?) =
      some reference.lines := by
    cases same : reference.lines with
    | none => exact holds.defaulted_absent _ _ (by simp) (by simp [members, same])
    | some range =>
        obtain ⟨start, stop⟩ := representable.lines range same
        exact holds.defaulted _ _ (by simp) (by simp [members, same])
          (Record.orNull_eq (LineRange.ofJson?_carry carries start stop)
            (carries.object_ne_null (by simp)))
  rw [ofJson?, toJson_eq, isRecord]
  simp only [Option.bind_eq_bind, Option.bind_some, path, hash, time, lines]
  rfl

end CodeReference

/-! ## Learnings -/

namespace Learning

/-- The members of the object that a learning is written as. -/
def members (learning : Learning) : List (String × Json) :=
  [("module_path", .string learning.modulePath), ("summary", .string learning.summary),
    ("purpose", .string learning.purpose),
    ("key_functions", .ofKeyed .string learning.keyFunctions),
    ("key_parameters", .ofKeyed .string learning.keyParameters),
    ("gotchas", .ofStrings learning.gotchas),
    ("dependencies", .ofStrings learning.dependencies)] ++
  ((learning.transplantTarget.map fun target => ("transplant_target", Json.string target)).toList ++
  ((learning.sourceRef.map fun reference => ("source_ref", reference.toJson)).toList ++
  [("confidence", .ofSingle learning.confidence), ("version", .ofNat learning.version),
    ("learned_at", learning.learnedAt.toJson), ("updated_at", learning.updatedAt.toJson)]))

theorem toJson_eq (learning : Learning) : learning.toJson = .object learning.members := by
  rw [toJson, members, List.append_assoc, List.append_assoc]
  cases learning.transplantTarget <;> cases learning.sourceRef <;> rfl

theorem distinct_members (learning : Learning) : (learning.members.map (·.1)).Nodup := by
  rw [members]
  cases learning.transplantTarget <;> cases learning.sourceRef <;> simp

theorem ofJson?_carry (carries : Carries carry) {learning : Learning}
    (representable : learning.IsRepresentable) (finite : learning.confidence.isFinite = true)
    (now : Instant) : ofJson? now (carry learning.toJson) = some learning := by
  obtain ⟨record, isRecord, holds⟩ := carries.record? learning.members learning.distinct_members
    ["module_path", "summary", "purpose", "key_functions", "key_parameters", "gotchas",
      "dependencies", "transplant_target", "source_ref", "confidence", "version",
      "learned_at", "updated_at"]
  have path := holds.defaulted "module_path" "" (by simp)
    (by simp [members]) (carries.asString? learning.modulePath)
  have summary := holds.defaulted "summary" "" (by simp)
    (by simp [members]) (carries.asString? learning.summary)
  have purpose := holds.defaulted "purpose" "" (by simp)
    (by simp [members]) (carries.asString? learning.purpose)
  have functions := holds.defaulted "key_functions" .empty (by simp)
    (by simp [members]) (carries.asStringMap? learning.keyFunctions)
  have parameters := holds.defaulted "key_parameters" .empty (by simp)
    (by simp [members]) (carries.asStringMap? learning.keyParameters)
  have gotchas := holds.defaulted "gotchas" [] (by simp)
    (by simp [members]) (carries.asStrings? learning.gotchas)
  have dependencies := holds.defaulted "dependencies" [] (by simp)
    (by simp [members]) (carries.asStrings? learning.dependencies)
  have target : record.defaulted "transplant_target" none (Record.orNull Json.asString?) =
      some learning.transplantTarget := by
    cases same : learning.transplantTarget with
    | none => exact holds.defaulted_absent _ _ (by simp) (by simp [members, same])
    | some target =>
        exact holds.defaulted _ _ (by simp) (by simp [members, same])
          (Record.orNull_eq (carries.asString? target) (by rw [carries.string]; exact nofun))
  have source : record.defaulted "source_ref" none (Record.orNull CodeReference.ofJson?) =
      some learning.sourceRef := by
    cases same : learning.sourceRef with
    | none => exact holds.defaulted_absent _ _ (by simp) (by simp [members, same])
    | some reference =>
        exact holds.defaulted _ _ (by simp) (by simp [members, same])
          (Record.orNull_eq
            (CodeReference.ofJson?_carry carries (representable.sourceRef reference same))
            (by rw [CodeReference.toJson_eq]
                exact carries.object_ne_null reference.distinct_members))
  have confidence := holds.defaulted "confidence" (.ofNat .single 1) (by simp)
    (by simp [members]) (carries.single representable.confidence finite)
  have version := holds.defaulted "version" 1 (by simp)
    (by simp [members]) (carries.asNat32? representable.version)
  have learned := holds.defaulted "learned_at" now (by simp)
    (by simp [members]) (Instant.ofJson?_carry carries representable.learnedAt)
  have updated := holds.defaulted "updated_at" now (by simp)
    (by simp [members]) (Instant.ofJson?_carry carries representable.updatedAt)
  rw [ofJson?, toJson_eq, isRecord, Option.bind_eq_bind, Option.bind_some]
  refine Option.bind_eq_some_iff.mpr ⟨_, path, ?_⟩
  refine Option.bind_eq_some_iff.mpr ⟨_, summary, ?_⟩
  refine Option.bind_eq_some_iff.mpr ⟨_, purpose, ?_⟩
  refine Option.bind_eq_some_iff.mpr ⟨_, functions, ?_⟩
  refine Option.bind_eq_some_iff.mpr ⟨_, parameters, ?_⟩
  refine Option.bind_eq_some_iff.mpr ⟨_, gotchas, ?_⟩
  refine Option.bind_eq_some_iff.mpr ⟨_, dependencies, ?_⟩
  refine Option.bind_eq_some_iff.mpr ⟨_, target, ?_⟩
  refine Option.bind_eq_some_iff.mpr ⟨_, source, ?_⟩
  refine Option.bind_eq_some_iff.mpr ⟨_, confidence, ?_⟩
  refine Option.bind_eq_some_iff.mpr ⟨_, version, ?_⟩
  refine Option.bind_eq_some_iff.mpr ⟨_, learned, ?_⟩
  refine Option.bind_eq_some_iff.mpr ⟨_, updated, ?_⟩
  rfl

end Learning

/-! ## Decisions and runs -/

theorem Decision.ofJson?_carry (carries : Carries carry) {decision : Decision}
    (valid : decision.decidedAt.IsValid) :
    Decision.ofJson? (carry decision.toJson) = some decision := by
  obtain ⟨record, isRecord, holds⟩ := carries.record?
    [("rationale", .string decision.rationale),
      ("modules", .ofStrings decision.modules), ("decided_at", decision.decidedAt.toJson)]
    (by simp) ["rationale", "modules", "decided_at"]
  have rationale := holds.required "rationale" (by simp) (by simp)
    (carries.asString? decision.rationale)
  have modules := holds.required "modules" (by simp) (by simp)
    (carries.asStrings? decision.modules)
  have time := holds.required "decided_at" (by simp) (by simp)
    (Instant.ofJson?_carry carries valid)
  rw [Decision.ofJson?, Decision.toJson, isRecord]
  simp only [Option.bind_eq_bind, Option.bind_some, rationale, modules, time]
  rfl

theorem RunKind.ofJson?_carry (carries : Carries carry) (kind : RunKind) :
    RunKind.ofJson? (carry kind.toJson) = some kind := by
  rw [RunKind.ofJson?, RunKind.toJson, carries.asChoice?]
  exact RunKind.ofName?_name kind

theorem RunRecord.ofJson?_carry (carries : Carries carry) {run : RunRecord}
    (valid : run.at_.IsValid) : RunRecord.ofJson? (carry run.toJson) = some run := by
  obtain ⟨record, isRecord, holds⟩ := carries.record?
    [("kind", run.kind.toJson), ("at", run.at_.toJson),
      ("detail", .string run.detail)]
    (by simp) ["kind", "at", "detail"]
  have kind := holds.required "kind" (by simp) (by simp)
    (RunKind.ofJson?_carry carries run.kind)
  have time := holds.required "at" (by simp) (by simp)
    (Instant.ofJson?_carry carries valid)
  have detail := holds.required "detail" (by simp) (by simp)
    (carries.asString? run.detail)
  rw [RunRecord.ofJson?, RunRecord.toJson, isRecord]
  simp only [Option.bind_eq_bind, Option.bind_some, kind, time, detail]
  rfl

/-! ## Knowledge -/

namespace Knowledge

/-- All parts can be held by a document. -/
structure IsRepresentable (knowledge : Knowledge) : Prop where
  version : knowledge.version < 2 ^ 32
  savedAt : knowledge.savedAt.IsValid
  learnings : ∀ learning ∈ knowledge.learnings.values, learning.IsRepresentable
  decisions : ∀ decision ∈ knowledge.decisions, decision.decidedAt.IsValid
  runs : ∀ run ∈ knowledge.runs, run.at_.IsValid

/-- Every confidence is a finite number. -/
def IsFinite (knowledge : Knowledge) : Prop :=
  ∀ learning ∈ knowledge.learnings.values, learning.confidence.isFinite = true

/-- Knowledge that is written is read back, apart from the limit of runs. -/
theorem ofJson?_carry (carries : Carries carry) {knowledge : Knowledge}
    (representable : knowledge.IsRepresentable) (finite : knowledge.IsFinite) (now : Instant) :
    ofJson? now (carry knowledge.toJson) =
      some { knowledge with runLimit := Settings.defaultRunHistory } := by
  obtain ⟨record, isRecord, holds⟩ := carries.record?
    [("project", .string knowledge.project), ("version", .ofNat knowledge.version),
      ("saved_at", knowledge.savedAt.toJson),
      ("learnings", .ofKeyed Learning.toJson knowledge.learnings),
      ("decisions", .array (knowledge.decisions.map Decision.toJson)),
      ("patterns", .ofKeyed .string knowledge.patterns),
      ("runs", .array (knowledge.runs.map RunRecord.toJson))]
    (by simp) ["project", "version", "saved_at", "learnings", "decisions", "patterns", "runs"]
  have project := holds.required "project" (by simp) (by simp)
    (carries.asString? knowledge.project)
  have version := holds.required "version" (by simp) (by simp)
    (carries.asNat32? representable.version)
  have time := holds.required "saved_at" (by simp) (by simp)
    (Instant.ofJson?_carry carries representable.savedAt)
  have learnings := holds.defaulted "learnings" .empty (by simp) (by simp)
    (carries.asKeyed? fun learning member => Learning.ofJson?_carry carries
      (representable.learnings learning member) (finite learning member) now)
  have decisions := holds.defaulted "decisions" [] (by simp) (by simp)
    (carries.asList? fun decision member =>
      Decision.ofJson?_carry carries (representable.decisions decision member))
  have patterns := holds.defaulted "patterns" .empty (by simp) (by simp)
    (carries.asStringMap? knowledge.patterns)
  have runs := holds.defaulted "runs" [] (by simp) (by simp)
    (carries.asList? fun run member =>
      RunRecord.ofJson?_carry carries (representable.runs run member))
  rw [ofJson?, toJson, isRecord, Option.bind_eq_bind, Option.bind_some]
  refine Option.bind_eq_some_iff.mpr ⟨_, project, ?_⟩
  refine Option.bind_eq_some_iff.mpr ⟨_, version, ?_⟩
  refine Option.bind_eq_some_iff.mpr ⟨_, time, ?_⟩
  refine Option.bind_eq_some_iff.mpr ⟨_, learnings, ?_⟩
  refine Option.bind_eq_some_iff.mpr ⟨_, decisions, ?_⟩
  refine Option.bind_eq_some_iff.mpr ⟨_, patterns, ?_⟩
  refine Option.bind_eq_some_iff.mpr ⟨_, runs, ?_⟩
  rfl

/-- The document of knowledge, read as it stands. -/
theorem ofJson?_ofText?_pretty {knowledge : Knowledge} (representable : knowledge.IsRepresentable)
    (finite : knowledge.IsFinite) (now : Instant) :
    (Json.ofText? knowledge.toJson.pretty).bind (ofJson? now) =
      some { knowledge with runLimit := Settings.defaultRunHistory } := by
  rw [Json.ofText?_pretty, Option.bind_some, ofJson?_carry carries_reread representable finite]

end Knowledge

end CodeAtlas
