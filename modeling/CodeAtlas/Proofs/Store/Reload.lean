import CodeAtlas.Proofs.Knowledge.Read
import CodeAtlas.Proofs.Knowledge.Representable
import CodeAtlas.Proofs.Store.Document

/-!
# Knowledge that is saved and loaded again

Knowledge that was loaded and is saved is loaded again as it was saved, unless a confidence is not
finite: such a confidence is written as nothing, and the document is refused from then on.
-/

namespace CodeAtlas

open Json

/-! ## Confidences that are not finite -/

section

variable {carry : Json → Json} {learning : Learning} {knowledge : Knowledge} {now : Instant}

theorem Json.Carries.asKeyed?_eq_none {α : Type} (carries : Carries carry) {encode : α → Json}
    {decode : Json → Option α} {map : Keyed α} {item : α} (member : item ∈ map.values)
    (refused : decode (carry (encode item)) = none) :
    (carry (.ofKeyed encode map)).asKeyed? decode = none := by
  obtain ⟨key, isEntry⟩ := Keyed.mem_values_iff.mp member
  rw [carries.keyed, ofKeyed, Json.asKeyed?, Option.map_eq_none_iff]
  refine mapM_eq_none_of_mem (List.mem_map_of_mem (Keyed.get?_eq_some_iff.mp isEntry)) ?_
  rw [refused, Option.map_none]

/-- A learning whose confidence is not finite is not read back. -/
theorem Learning.ofJson?_carry_eq_none (carries : Carries carry)
    (infinite : learning.confidence.isFinite = false) (now : Instant) :
    ofJson? now (carry learning.toJson) = none := by
  obtain ⟨record, isRecord, holds⟩ := carries.record? learning.members learning.distinct_members
    ["module_path", "summary", "purpose", "key_functions", "key_parameters", "gotchas",
      "dependencies", "transplant_target", "source_ref", "confidence", "version",
      "learned_at", "updated_at"]
  have refused : record.defaulted "confidence" (.ofNat .single 1) Json.asSingle? = none := by
    rw [Record.defaulted, holds.present "confidence" (by simp)
      (by simp [members] : ("confidence", .ofSingle learning.confidence) ∈ learning.members),
      ofSingle, infinite, if_neg Bool.false_ne_true, carries.null]
    rfl
  rw [Option.eq_none_iff_forall_ne_some]
  intro found isFound
  rw [toJson_eq] at isFound
  obtain ⟨other, isOther, isFound⟩ := Option.bind_eq_some_iff.mp isFound
  obtain rfl : record = other := Option.some.inj (isRecord.symm.trans isOther)
  obtain ⟨_, -, isFound⟩ := Option.bind_eq_some_iff.mp isFound
  obtain ⟨_, -, isFound⟩ := Option.bind_eq_some_iff.mp isFound
  obtain ⟨_, -, isFound⟩ := Option.bind_eq_some_iff.mp isFound
  obtain ⟨_, -, isFound⟩ := Option.bind_eq_some_iff.mp isFound
  obtain ⟨_, -, isFound⟩ := Option.bind_eq_some_iff.mp isFound
  obtain ⟨_, -, isFound⟩ := Option.bind_eq_some_iff.mp isFound
  obtain ⟨_, -, isFound⟩ := Option.bind_eq_some_iff.mp isFound
  obtain ⟨_, -, isFound⟩ := Option.bind_eq_some_iff.mp isFound
  obtain ⟨_, -, isFound⟩ := Option.bind_eq_some_iff.mp isFound
  obtain ⟨_, isConfidence, -⟩ := Option.bind_eq_some_iff.mp isFound
  rw [refused] at isConfidence
  cases isConfidence

/-- Knowledge with a confidence that is not finite is not read back. -/
theorem Knowledge.ofJson?_carry_eq_none (carries : Carries carry)
    (infinite : ¬knowledge.IsFinite) (now : Instant) :
    ofJson? now (carry knowledge.toJson) = none := by
  obtain ⟨learning, member, notFinite⟩ : ∃ learning ∈ knowledge.learnings.values,
      learning.confidence.isFinite = false := by simpa [IsFinite] using infinite
  obtain ⟨record, isRecord, holds⟩ := carries.record?
    [("project", .string knowledge.project), ("version", .ofNat knowledge.version),
      ("saved_at", knowledge.savedAt.toJson),
      ("learnings", .ofKeyed Learning.toJson knowledge.learnings),
      ("decisions", .array (knowledge.decisions.map Decision.toJson)),
      ("patterns", .ofKeyed .string knowledge.patterns),
      ("runs", .array (knowledge.runs.map RunRecord.toJson))]
    (by simp) ["project", "version", "saved_at", "learnings", "decisions", "patterns", "runs"]
  have refused : record.defaulted "learnings" .empty (Json.asKeyed? (Learning.ofJson? now)) =
      none := by
    rw [Record.defaulted, holds.present "learnings" (by simp) (List.mem_of_getElem? (i := 3) rfl)]
    exact carries.asKeyed?_eq_none member (Learning.ofJson?_carry_eq_none carries notFinite now)
  rw [Option.eq_none_iff_forall_ne_some]
  intro found isFound
  obtain ⟨other, isOther, isFound⟩ := Option.bind_eq_some_iff.mp isFound
  obtain rfl : record = other := Option.some.inj (isRecord.symm.trans isOther)
  obtain ⟨_, -, isFound⟩ := Option.bind_eq_some_iff.mp isFound
  obtain ⟨_, -, isFound⟩ := Option.bind_eq_some_iff.mp isFound
  obtain ⟨_, -, isFound⟩ := Option.bind_eq_some_iff.mp isFound
  obtain ⟨_, areLearnings, -⟩ := Option.bind_eq_some_iff.mp isFound
  rw [refused] at areLearnings
  cases areLearnings

/-- What is read of a document of knowledge that could be held by one. -/
theorem Knowledge.ofJson?_ofText?_pretty_eq_none (infinite : ¬knowledge.IsFinite) (now : Instant) :
    (Json.ofText? knowledge.toJson.pretty).bind (ofJson? now) = none := by
  rw [Json.ofText?_pretty, Option.bind_some]
  exact ofJson?_carry_eq_none carries_reread infinite now

end

namespace Knowledge

variable {knowledge : Knowledge}

/-! ## The window of runs -/

theorem isLimited_setRunLimit (knowledge : Knowledge) (limit : Nat) :
    (knowledge.setRunLimit limit).IsLimited limit :=
  ⟨rfl, length_lastOf_le _ _⟩

/-- Setting the limit of limited knowledge brings back the limit and nothing else. -/
theorem IsLimited.setRunLimit {limit other : Nat} (limited : knowledge.IsLimited limit) :
    Knowledge.setRunLimit { knowledge with runLimit := other } limit = knowledge := by
  obtain ⟨project, version, savedAt, learnings, decisions, patterns, runs, runLimit⟩ := knowledge
  obtain ⟨isLimit, few⟩ := limited
  obtain rfl : runLimit = max limit 1 := isLimit
  simp only [Knowledge.setRunLimit, trimRuns, lastOf_of_length_le few]

end Knowledge

namespace Store

variable {store : Store} {disk made saved : Disk} {reached : List String}
  {knowledge reloaded : Knowledge} {text project : String} {first second third : Instant}

/-- Knowledge as it is saved at an instant can be held by a document if it could. -/
theorem isRepresentable_stamped (representable : knowledge.IsRepresentable)
    (valid : second.IsValid) : (stamped knowledge second).IsRepresentable :=
  ⟨representable.version, valid, representable.learnings, representable.decisions,
    representable.runs⟩

/-! ## Loading -/

/-- What is loaded when the document is there. -/
theorem loadKnowledge_of_readText (document : disk.readText store.knowledgePath = .ok text) :
    store.loadKnowledge disk project first =
      match (Json.ofText? text).bind (Knowledge.ofJson? first) with
      | some knowledge => .ok (knowledge.setRunLimit store.settings.runHistory)
      | none => .error (.notJson (.text .knowledge text)) := by
  rw [loadKnowledge, readAs_of_readText document]
  cases (Json.ofText? text).bind (Knowledge.ofJson? first) <;> rfl

/-- Knowledge of a project that has no document. -/
def freshKnowledge (store : Store) (project : String) (now : Instant) : Knowledge :=
  (Knowledge.new project now).setRunLimit store.settings.runHistory

theorem loadKnowledge_of_missing (absent : disk.readText store.knowledgePath = .error .missing) :
    store.loadKnowledge disk project first = .ok (store.freshKnowledge project first) := by
  rw [loadKnowledge, readAs, readDocument, absent]
  rfl

theorem loadKnowledge_of_fault {fault : DiskFault} (there : fault ≠ .missing)
    (unread : disk.readText store.knowledgePath = .error fault) :
    store.loadKnowledge disk project first = .error (.inputOutput fault) := by
  rw [loadKnowledge, readAs, readDocument, unread]
  cases fault with
  | missing => exact absurd rfl there
  | taken | notDirectory | isDirectory | notText => rfl

theorem isRepresentable_freshKnowledge (valid : first.IsValid) (project : String) :
    (store.freshKnowledge project first).IsRepresentable :=
  (Knowledge.isRepresentable_new project valid).setRunLimit _

/-- Knowledge that is loaded was read from its document, or there is none. -/
theorem read_or_fresh_of_loadKnowledge
    (loaded : store.loadKnowledge disk project first = .ok knowledge) :
    (∃ text value read, disk.readText store.knowledgePath = .ok text ∧
        Json.ofText? text = some value ∧ Knowledge.ofJson? first value = some read ∧
        knowledge = read.setRunLimit store.settings.runHistory) ∨
      disk.readText store.knowledgePath = .error .missing ∧
        knowledge = store.freshKnowledge project first := by
  cases document : disk.readText store.knowledgePath with
  | ok text =>
      rw [loadKnowledge_of_readText document] at loaded
      split at loaded
      next read isRead =>
        cases loaded
        obtain ⟨value, isValue, decoded⟩ := Option.bind_eq_some_iff.mp isRead
        exact .inl ⟨text, value, read, rfl, isValue, decoded, rfl⟩
      next => cases loaded
  | error fault =>
      by_cases absent : fault = .missing
      · subst absent
        rw [loadKnowledge_of_missing document] at loaded
        cases loaded
        exact .inr ⟨rfl, rfl⟩
      · rw [loadKnowledge_of_fault absent document] at loaded
        cases loaded

/-- Knowledge that is loaded can be held by a document. -/
theorem isRepresentable_of_loadKnowledge (valid : first.IsValid)
    (loaded : store.loadKnowledge disk project first = .ok knowledge) :
    knowledge.IsRepresentable ∧ knowledge.IsLimited store.settings.runHistory := by
  obtain ⟨text, value, read, -, isValue, decoded, rfl⟩ | ⟨-, rfl⟩ :=
    read_or_fresh_of_loadKnowledge loaded
  · exact ⟨(Knowledge.isRepresentable_of_ofJson? (Json.isRead_of_ofText? isValue) valid
      decoded).setRunLimit _, Knowledge.isLimited_setRunLimit _ _⟩
  · exact ⟨isRepresentable_freshKnowledge valid project, Knowledge.isLimited_setRunLimit _ _⟩

/-! ## Saving -/

/-- The problem with a document of knowledge that was saved, if it is refused. -/
def refusal (knowledge : Knowledge) (now : Instant) : Problem :=
  .notJson (.text .knowledge (stamped knowledge now).toJson.pretty)

/-- The disk on which knowledge has been saved. -/
def savedOn (made : Disk) (reached : List String) (knowledge : Knowledge) (now : Instant) : Disk :=
  made.replaced reached "knowledge.json" (stamped knowledge now).toJson.pretty.toUTF8 now

theorem runOn_saveKnowledge (makes : disk.Makes made store.dataDirectory reached)
    (free : made.IsFree reached "knowledge.json") :
    (store.saveKnowledge knowledge second).runOn disk =
      (.ok (), savedOn made reached knowledge second) :=
  runOn_writeDocument store.isPlain_dataDirectory isEntryName_knowledge makes free

theorem readText_savedOn (makes : disk.Makes made store.dataDirectory reached)
    (free : made.IsFree reached "knowledge.json") :
    (savedOn made reached knowledge second).readText store.knowledgePath =
      .ok (stamped knowledge second).toJson.pretty :=
  Disk.readText_replaced store.isPlain_dataDirectory isEntryName_knowledge makes.located
    makes.isDirectory free

/-- What is written is loaded if all confidences are finite. -/
theorem loadKnowledge_of_written
    (document : disk.readText store.knowledgePath = .ok (stamped knowledge second).toJson.pretty)
    (valid : second.IsValid) (representable : knowledge.IsRepresentable)
    (limited : knowledge.IsLimited store.settings.runHistory) (finite : knowledge.IsFinite) :
    store.loadKnowledge disk project third = .ok (stamped knowledge second) := by
  have whole : (stamped knowledge second).IsLimited store.settings.runHistory :=
    ⟨limited.runLimit, limited.bounded⟩
  rw [loadKnowledge_of_readText document,
    Knowledge.ofJson?_ofText?_pretty (isRepresentable_stamped representable valid) finite third]
  exact congrArg Except.ok whole.setRunLimit

/-- What was saved is loaded if all confidences are finite. -/
theorem loadKnowledge_savedOn (makes : disk.Makes made store.dataDirectory reached)
    (free : made.IsFree reached "knowledge.json") (valid : second.IsValid)
    (representable : knowledge.IsRepresentable)
    (limited : knowledge.IsLimited store.settings.runHistory) (finite : knowledge.IsFinite) :
    store.loadKnowledge (savedOn made reached knowledge second) project third =
      .ok (stamped knowledge second) :=
  loadKnowledge_of_written (readText_savedOn makes free) valid representable limited finite

/-- What was written is refused if a confidence is not finite. -/
theorem loadKnowledge_of_written_eq_error
    (document : disk.readText store.knowledgePath = .ok (stamped knowledge second).toJson.pretty)
    (infinite : ¬knowledge.IsFinite) :
    store.loadKnowledge disk project third = .error (refusal knowledge second) := by
  have notFinite : ¬(stamped knowledge second).IsFinite := infinite
  rw [loadKnowledge_of_readText document, Knowledge.ofJson?_ofText?_pretty_eq_none notFinite third]
  rfl

theorem loadKnowledge_savedOn_eq_error (makes : disk.Makes made store.dataDirectory reached)
    (free : made.IsFree reached "knowledge.json") (infinite : ¬knowledge.IsFinite) :
    store.loadKnowledge (savedOn made reached knowledge second) project third =
      .error (refusal knowledge second) :=
  loadKnowledge_of_written_eq_error (readText_savedOn makes free) infinite

/-- A document that is there can be replaced if nothing stands beside it. -/
theorem exists_makes_of_readText {name : String} (proper : Path.IsEntryName name)
    (document : disk.readText (Path.resolve store.dataDirectory name) = .ok text)
    (beside : disk.isDirectory (temporaryPath (Path.resolve store.dataDirectory name)) = false) :
    ∃ reached, disk.Makes disk store.dataDirectory reached ∧ disk.IsFree reached name := by
  have plain := store.isPlain_dataDirectory
  obtain ⟨_, modified, located, isFile⟩ :=
    Disk.read_eq_ok_iff_entryAt?.mp (Disk.readText_eq_ok_iff_read.mp document)
  obtain ⟨reached, isLocated, isDirectory, rfl⟩ :=
    (Disk.locate_resolve_eq_ok_iff plain proper).mp located
  refine ⟨reached, Disk.makes_of_directory isLocated isDirectory, by simp [isFile], ?_⟩
  intro taken
  rw [Disk.temporaryPath_resolve plain proper] at beside
  have there := Disk.isDirectory_iff.mpr ⟨_, (Disk.locate_resolve_eq_ok_iff plain
    (Disk.isEntryName_temporary proper)).mpr ⟨reached, isLocated, isDirectory, rfl⟩, taken⟩
  rw [beside] at there
  cases there

/-- What becomes of a document of knowledge that is loaded, saved and loaded again, if nothing
stands beside it: saving succeeds; loading again succeeds exactly if all confidences are finite,
and then gives what was loaded before, at the time of saving; and it gives confidences between
zero and one exactly if they were loaded so. -/
theorem reload_knowledge_iff (third : Instant) (validFirst : first.IsValid)
    (validSecond : second.IsValid)
    (document : disk.readText store.knowledgePath = .ok text)
    (beside : disk.isDirectory (temporaryPath store.knowledgePath) = false)
    (loaded : store.loadKnowledge disk project first = .ok knowledge) :
    ∃ saved, (store.saveKnowledge knowledge second).runOn disk = (.ok (), saved) ∧
      (store.loadKnowledge saved project third = .ok (stamped knowledge second) ↔
        knowledge.IsFinite) ∧
      (store.loadKnowledge saved project third = .error (refusal knowledge second) ↔
        ¬knowledge.IsFinite) ∧
      ((∃ reloaded, store.loadKnowledge saved project third = .ok reloaded ∧
          reloaded.learnings = knowledge.learnings ∧ reloaded.decisions = knowledge.decisions ∧
          reloaded.patterns = knowledge.patterns ∧ reloaded.runs = knowledge.runs ∧
          ∀ learning ∈ reloaded.learnings.values, Learning.IsConfidence learning.confidence) ↔
        ∀ learning ∈ knowledge.learnings.values, Learning.IsConfidence learning.confidence) := by
  obtain ⟨reached, makes, free⟩ :=
    exists_makes_of_readText isEntryName_knowledge document beside
  obtain ⟨representable, limited⟩ := isRepresentable_of_loadKnowledge validFirst loaded
  refine ⟨_, runOn_saveKnowledge makes free, ?_⟩
  by_cases finite : knowledge.IsFinite
  · rw [loadKnowledge_savedOn makes free validSecond representable limited finite]
    refine ⟨by simp [finite], by simp [finite], ?_⟩
    constructor
    · rintro ⟨reloaded, same, learnings, -, -, -, confidences⟩
      exact learnings ▸ confidences
    · intro confidences
      exact ⟨_, rfl, rfl, rfl, rfl, rfl, confidences⟩
  · rw [loadKnowledge_savedOn_eq_error makes free finite]
    refine ⟨by simp [finite], by simp [finite], ?_⟩
    constructor
    · rintro ⟨reloaded, same, -⟩
      cases same
    · intro confidences
      exact absurd (fun learning member => (confidences learning member).isFinite) finite

/-- The store of a project on the disks below. -/
def demoStore : Store := ⟨"/demo", .default⟩

/-- A document of knowledge that notes one learning with a confidence. -/
def confidenceText (confidence : String) : String :=
  "\x7b\"project\": \"demo\", \"version\": 1, \"saved_at\": \"2024-01-01T00:00:00Z\", " ++
    "\"learnings\": \x7b\"a.py\": \x7b\"module_path\": \"a.py\", \"confidence\": " ++ confidence ++
    "\x7d\x7d\x7d"

/-- A disk with that document. -/
def confidenceDisk (confidence : String) : Disk :=
  ⟨.ofList [("demo", .directory), ("demo/.scion", .directory),
    ("demo/.scion/knowledge.json", .file (confidenceText confidence).toUTF8 default)], []⟩

/-- A confidence between zero and one is loaded again. -/
theorem reload_half : ∃ knowledge saved,
    demoStore.loadKnowledge (confidenceDisk "0.5") "demo" default = .ok knowledge ∧
      (demoStore.saveKnowledge knowledge default).runOn (confidenceDisk "0.5") = (.ok (), saved) ∧
      ∃ reloaded, demoStore.loadKnowledge saved "demo" default = .ok reloaded ∧
        reloaded.learnings = knowledge.learnings := by
  have evaluated : (demoStore.loadKnowledge (confidenceDisk "0.5") "demo"
      default).toOption.map (fun knowledge => knowledge.learnings.values.all
        fun learning => decide (Learning.IsConfidence learning.confidence)) = some true := by
    decide +kernel
  obtain ⟨knowledge, loaded, confidences⟩ := map_toOption_eq_some_iff.mp evaluated
  have valid : (default : Instant).IsValid := by decide +kernel
  have document : (confidenceDisk "0.5").readText demoStore.knowledgePath =
      .ok (confidenceText "0.5") := toOption_eq_some_iff.mp (by decide +kernel)
  obtain ⟨saved, isSaved, -, -, reloads⟩ := reload_knowledge_iff default valid valid
    document (by decide +kernel) loaded
  obtain ⟨reloaded, isReloaded, learnings, -⟩ := reloads.mpr (by simpa using confidences)
  exact ⟨knowledge, saved, loaded, isSaved, reloaded, isReloaded, learnings⟩

/-- A confidence beyond single precision is accepted, and saving it makes a document that is
refused. -/
theorem reload_overlarge_refused : ∃ knowledge saved,
    demoStore.loadKnowledge (confidenceDisk "1e39") "demo" default = .ok knowledge ∧
      (demoStore.saveKnowledge knowledge default).runOn (confidenceDisk "1e39") = (.ok (), saved) ∧
      demoStore.loadKnowledge saved "demo" default = .error (refusal knowledge default) := by
  have evaluated : (demoStore.loadKnowledge (confidenceDisk "1e39") "demo"
      default).toOption.map (fun knowledge => knowledge.learnings.values.all
        (·.confidence.isFinite)) = some false := by
    decide +kernel
  obtain ⟨knowledge, loaded, infinite⟩ := map_toOption_eq_some_iff.mp evaluated
  have document : (confidenceDisk "1e39").readText demoStore.knowledgePath =
      .ok (confidenceText "1e39") := toOption_eq_some_iff.mp (by decide +kernel)
  obtain ⟨reached, makes, free⟩ :=
    exists_makes_of_readText isEntryName_knowledge document (by decide +kernel)
  exact ⟨knowledge, _, loaded, runOn_saveKnowledge makes free,
    loadKnowledge_savedOn_eq_error makes free (by simpa [Knowledge.IsFinite] using infinite)⟩

end Store

end CodeAtlas
