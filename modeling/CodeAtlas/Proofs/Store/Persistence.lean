import CodeAtlas.Proofs.Knowledge.Staleness
import CodeAtlas.Proofs.Store.Reload

/-!
# Knowledge that is kept in memory or on disk

Operations on knowledge answer the same whether it stays in memory or is saved and loaded again
between them.  Saving changes when the knowledge was saved, which no operation looks at; loading
brings back the rest, since what operations store can be held by a document.
-/

namespace CodeAtlas

namespace Knowledge

variable {knowledge : Knowledge} {action : KnowledgeAction} {learning : Learning} {path : String}

/-! ## What operations do not look at -/

theorem refreshAcross_stamped (path : String) (views : DiskViews) (root : String)
    (now saving : Instant) : (Store.stamped knowledge saving).refreshAcross path views root now =
      (knowledge.refreshAcross path views root now).map fun refreshed =>
        (Store.stamped refreshed.1 saving, refreshed.2) := by
  have found : (Store.stamped knowledge saving).learning? path = knowledge.learning? path := rfl
  rw [refreshAcross, refreshAcross, found]
  cases knowledge.learning? path with
  | none => rfl
  | some learning =>
      dsimp only
      cases learning.sourceRef with
      | none => rfl
      | some reference =>
          dsimp only
          split
          · cases CodeReference.captureBetween views.capturedTime views.capturedContent root
              reference.path reference.lines <;> rfl
          · rfl

/-- Operations do not look at when knowledge was saved. -/
theorem perform_stamped (knowledge : Knowledge) (action : KnowledgeAction) (now : Instant) :
    (Store.stamped knowledge now).perform action =
      (Store.stamped (knowledge.perform action).1 now, (knowledge.perform action).2) := by
  cases action with
  | add learning _ =>
      cases taken : knowledge.learnings.contains learning.modulePath <;>
        simp [perform, addLearning, Store.stamped, taken, putLearning]
  | relearn learning _ =>
      cases isPrevious : knowledge.learnings.get? learning.modulePath <;>
        simp [perform, relearn, learning?, Store.stamped, isPrevious, putLearning]
  | refresh path views root at_ =>
      rw [perform, refreshAcross_stamped, perform]
      cases knowledge.refreshAcross path views root at_ <;> rfl
  | adopt learning =>
      cases taken : knowledge.learnings.contains learning.modulePath <;>
        simp [perform, adoptLearning, Store.stamped, taken, putLearning]
  | _ => rfl

/-- Two sequences of looks at a disk see the same of a file. -/
structure DiskViews.SeesAlike (views others : DiskViews) (path : String) : Prop where
  checkedTime : views.checkedTime.modified path = others.checkedTime.modified path
  checkedContent : views.checkedContent.read path = others.checkedContent.read path
  capturedTime : views.capturedTime.modified path = others.capturedTime.modified path
  capturedContent : views.capturedContent.read path = others.capturedContent.read path

/-- The same operation, where a refresh may look at another disk that shows the same source. -/
inductive IsLike (knowledge : Knowledge) : KnowledgeAction → KnowledgeAction → Prop
  | same (action : KnowledgeAction) : knowledge.IsLike action action
  | refresh (path : String) (views others : DiskViews) (root : String) (now : Instant)
      (alike : ∀ learning reference, knowledge.learning? path = some learning →
        learning.sourceRef = some reference →
          views.SeesAlike others (Path.resolve root reference.path)) :
      knowledge.IsLike (.refresh path views root now) (.refresh path others root now)

/-- A refresh looks at nothing but the source of the learning. -/
theorem IsLike.perform {other : KnowledgeAction} (like : knowledge.IsLike action other) :
    knowledge.perform action = knowledge.perform other := by
  cases like with
  | same => rfl
  | refresh path views others root now alike =>
      have same : knowledge.refreshAcross path views root now =
          knowledge.refreshAcross path others root now := by
        rw [refreshAcross, refreshAcross]
        cases isLearning : knowledge.learning? path with
        | none => rfl
        | some learning =>
            cases isReference : learning.sourceRef with
            | none => simp only [isReference]
            | some reference =>
                have seen := alike learning reference isLearning isReference
                have checked : reference.checkBetween views.checkedTime views.checkedContent root =
                    reference.checkBetween others.checkedTime others.checkedContent root := by
                  rw [CodeReference.checkBetween, CodeReference.checkBetween, seen.checkedTime,
                    seen.checkedContent]
                have captured : CodeReference.captureBetween views.capturedTime
                    views.capturedContent root reference.path reference.lines =
                      CodeReference.captureBetween others.capturedTime others.capturedContent root
                        reference.path reference.lines := by
                  rw [CodeReference.captureBetween, CodeReference.captureBetween,
                    seen.capturedTime, seen.capturedContent]
                simp only [isReference, checked, captured]
      rw [Knowledge.perform, Knowledge.perform, same]

/-! ## What a refresh sees -/

variable {reference : CodeReference} {disk : Disk} {root : String}

theorem perform_refresh_of_missing (isLearning : knowledge.learning? path = some learning)
    (isReference : learning.sourceRef = some reference)
    (absent : disk.modified (Path.resolve root reference.path) = .error .missing) (now : Instant) :
    knowledge.perform (.refresh path (.still disk) root now) =
      (knowledge, .failed (.notFound .file reference.path)) := by
  refine refreshOn_of_uncapturable isLearning isReference ?_
  rw [CodeReference.capture, CodeReference.captureBetween, absent]
  rfl

theorem perform_refresh_of_changed {content : ByteArray} {modified : Instant}
    (isLearning : knowledge.learning? path = some learning)
    (isReference : learning.sourceRef = some reference)
    (entry : disk.entry (Path.resolve root reference.path) = .ok (.file content modified))
    (time : modified ≠ reference.modified) (hash : Digest.sha256 content ≠ reference.hash)
    (now : Instant) : (knowledge.perform (.refresh path (.still disk) root now)).2 =
      .refreshed (.refreshed (nextVersion learning.version)) := by
  have stale := (CodeReference.isStale_iff_of_entry entry).mpr ⟨time, hash⟩
  rw [perform_refresh_still, refreshOn_of_stale isLearning isReference stale,
    CodeReference.capture_eq_ok_iff.mpr ⟨content, modified, entry, rfl⟩]

end Knowledge

/-! ## Sessions -/

/-- A step of a session: an operation on knowledge, or saving knowledge on a disk and loading it
again. -/
inductive SessionStep
  | act (action : KnowledgeAction)
  | reload (disk : Disk) (project : String) (saving loading : Instant)

namespace Store

variable {store : Store} {disk : Disk} {knowledge : Knowledge}

/-- Knowledge after a step, with the answer of an operation. -/
def takeStep (store : Store) (knowledge : Knowledge) :
    SessionStep → Except Problem (Knowledge × Option KnowledgeAnswer)
  | .act action => .ok ((knowledge.perform action).1, some (knowledge.perform action).2)
  | .reload disk project saving loading =>
      match (store.saveKnowledge knowledge saving).runOn disk with
      | (.error problem, _) => .error problem
      | (.ok (), saved) => do return (← store.loadKnowledge saved project loading, none)

/-- Knowledge after the steps of a session, with the answers of its operations. -/
def session (store : Store) (knowledge : Knowledge) :
    List SessionStep → Except Problem (Knowledge × List KnowledgeAnswer)
  | [] => .ok (knowledge, [])
  | step :: rest => do
      let (next, answer) ← store.takeStep knowledge step
      let (final, answers) ← store.session next rest
      return (final, answer.toList ++ answers)

/-- Steps are the given operations with saving and loading inserted between them. -/
inductive Interrupts (store : Store) :
    Knowledge → List KnowledgeAction → List SessionStep → Prop
  | nil (knowledge : Knowledge) : store.Interrupts knowledge [] []
  | act {knowledge : Knowledge} {action other : KnowledgeAction} {actions : List KnowledgeAction}
      {steps : List SessionStep} (like : knowledge.IsLike action other)
      (rest : store.Interrupts (knowledge.perform action).1 actions steps) :
      store.Interrupts knowledge (action :: actions) (.act other :: steps)
  | reload {knowledge : Knowledge} {actions : List KnowledgeAction} {steps : List SessionStep}
      {disk : Disk} {saving : Instant} (writable : CanWrite disk store.knowledgePath)
      (valid : saving.IsValid)
      (project : String) (loading : Instant) (rest : store.Interrupts knowledge actions steps) :
      store.Interrupts knowledge actions (.reload disk project saving loading :: steps)

/-- What a session keeps: knowledge can be held by a document, its learnings stand under their own
paths, and its runs are limited as the settings say. -/
structure IsSound (store : Store) (knowledge : Knowledge) : Prop where
  representable : knowledge.IsRepresentable
  owned : knowledge.IsOwned
  limited : knowledge.IsLimited store.settings.runHistory

theorem isSound_freshKnowledge {now : Instant} (valid : now.IsValid) (project : String) :
    store.IsSound (store.freshKnowledge project now) where
  representable := isRepresentable_freshKnowledge valid project
  owned := nofun
  limited := Knowledge.isLimited_setRunLimit _ _

theorem IsSound.perform {action : KnowledgeAction} (sound : store.IsSound knowledge)
    (given : action.IsRepresentable) (constant : ∀ count, action ≠ .limit count) :
    store.IsSound (knowledge.perform action).1 where
  representable := sound.representable.perform given
  owned := sound.owned.perform action
  limited := by
    have same : action.limitAfter store.settings.runHistory = store.settings.runHistory := by
      cases action with
      | limit count => exact absurd rfl (constant count)
      | _ => rfl
    exact same ▸ sound.limited.perform action

/-- Saving and loading gives back sound knowledge. -/
theorem takeStep_reload {project : String} {saving : Instant} (sound : store.IsSound knowledge)
    (writable : CanWrite disk store.knowledgePath) (valid : saving.IsValid) (loading : Instant) :
    store.takeStep knowledge (.reload disk project saving loading) =
      .ok (stamped knowledge saving, none) := by
  obtain ⟨made, reached, makes, free⟩ := exists_makes_of_writeDocument
    store.isPlain_dataDirectory isEntryName_knowledge
    (writable (stamped knowledge saving).toJson saving)
  rw [takeStep, runOn_saveKnowledge makes free]
  dsimp only
  rw [loadKnowledge_savedOn makes free valid sound.representable sound.limited
    sound.owned.isFinite]
  rfl

theorem session_cons_of_takeStep {step : SessionStep} {rest : List SessionStep}
    {next final : Knowledge} {answer : Option KnowledgeAnswer} {answers : List KnowledgeAnswer}
    (taken : store.takeStep knowledge step = .ok (next, answer))
    (continued : store.session next rest = .ok (final, answers)) :
    store.session knowledge (step :: rest) = .ok (final, answer.toList ++ answers) := by
  rw [session, taken]
  change (do
    let (final, answers) ← store.session next rest
    return (final, answer.toList ++ answers)) = _
  rw [continued]
  rfl

/-- An interrupted session answers as the plain one does and ends with the same knowledge, but for
the time of saving. -/
theorem Interrupts.session {actions : List KnowledgeAction} {steps : List SessionStep}
    (interrupts : store.Interrupts knowledge actions steps) (sound : store.IsSound knowledge)
    (given : ∀ action ∈ actions, action.IsRepresentable)
    (constant : ∀ count, KnowledgeAction.limit count ∉ actions) {saved : Instant}
    (valid : saved.IsValid) :
    ∃ final answers last, store.session knowledge (actions.map .act) = .ok (final, answers) ∧
      store.session (stamped knowledge saved) steps = .ok (stamped final last, answers) := by
  induction interrupts generalizing saved with
  | nil knowledge => exact ⟨knowledge, [], saved, rfl, rfl⟩
  | @act knowledge action other actions steps like rest hypothesis =>
      have next : store.IsSound (knowledge.perform action).1 :=
        sound.perform (given action List.mem_cons_self)
          fun count same => constant count (same ▸ List.mem_cons_self)
      obtain ⟨final, answers, last, plain, cut⟩ := hypothesis next
        (fun action member => given action (List.mem_cons_of_mem _ member))
        (fun count member => constant count (List.mem_cons_of_mem _ member)) valid
      have first : store.takeStep knowledge (.act action) =
          .ok ((knowledge.perform action).1, some (knowledge.perform action).2) := rfl
      have taken : store.takeStep (stamped knowledge saved) (.act other) =
          .ok (stamped (knowledge.perform action).1 saved, some (knowledge.perform action).2) := by
        rw [takeStep, Knowledge.perform_stamped, ← like.perform]
      refine ⟨final, (knowledge.perform action).2 :: answers, last, ?_, ?_⟩
      · exact session_cons_of_takeStep first plain
      · exact session_cons_of_takeStep taken cut
  | @reload knowledge actions steps disk saving writable validSaving project loading rest
      hypothesis =>
      obtain ⟨final, answers, last, plain, cut⟩ := hypothesis sound given constant validSaving
      refine ⟨final, answers, last, plain, ?_⟩
      have stampedSound : store.IsSound (stamped knowledge saved) :=
        ⟨isRepresentable_stamped sound.representable valid, sound.owned,
          sound.limited.runLimit, sound.limited.bounded⟩
      exact session_cons_of_takeStep (takeStep_reload stampedSound writable validSaving loading) cut

/-- Starting from a project without a document of knowledge, saving and loading knowledge between
operations changes neither what later operations answer nor the knowledge in the end, if the saves
can be written and each refresh sees the same of the source of its learning. -/
theorem session_eq_of_interrupts {project : String} {start : Instant} {actions : List KnowledgeAction}
    {steps : List SessionStep}
    (absent : disk.readText store.knowledgePath = .error .missing) (valid : start.IsValid)
    (given : ∀ action ∈ actions, action.IsRepresentable)
    (constant : ∀ count, KnowledgeAction.limit count ∉ actions)
    (interrupts : store.Interrupts (store.freshKnowledge project start) actions steps) :
    ∃ knowledge plain cut answers, store.loadKnowledge disk project start = .ok knowledge ∧
      store.session knowledge (actions.map .act) = .ok (plain, answers) ∧
      store.session knowledge steps = .ok (cut, answers) ∧
      cut.learnings = plain.learnings ∧ cut.decisions = plain.decisions ∧
      cut.patterns = plain.patterns ∧ cut.runs = plain.runs := by
  have sound := store.isSound_freshKnowledge valid project
  obtain ⟨final, answers, last, plain, cut⟩ :=
    interrupts.session sound given constant sound.representable.savedAt
  exact ⟨_, final, stamped final last, answers, loadKnowledge_of_missing absent, plain, cut, rfl,
    rfl, rfl, rfl⟩

/-- A disk with a project whose data directory is empty. -/
def bareDisk : Disk := ⟨.ofList [("demo", .directory), ("demo/.scion", .directory)], []⟩

theorem canWrite_bareDisk : CanWrite bareDisk demoStore.knowledgePath :=
  canWrite_of_isDirectory demoStore.isPlain_dataDirectory isEntryName_knowledge
    (by decide +kernel) (by decide +kernel) (by decide +kernel)

/-- A learning of a module that was captured from a path. -/
def demoLearning (source : String) : Learning :=
  { Learning.blank default with
    modulePath := "a.py"
    sourceRef := some ⟨source, "", ⟨1, 0⟩, none⟩
    confidence := .zero }

theorem isRepresentable_demoLearning (source : String) :
    (demoLearning source).IsRepresentable where
  confidence := Ieee.isProper_zero false
  version := Nat.one_lt_two_pow (by decide)
  sourceRef := by
    intro reference isReference
    cases isReference
    exact ⟨(by decide +kernel : Instant.IsValid ⟨1, 0⟩), nofun⟩
  learnedAt := (by decide +kernel : (default : Instant).IsValid)
  updatedAt := (by decide +kernel : (default : Instant).IsValid)

theorem isTimed_bareDisk : bareDisk.IsTimed := by
  intro path modified isModified
  obtain ⟨content, entry⟩ := Disk.modified_eq_ok_iff.mp isModified
  obtain ⟨reached, -, there⟩ := Disk.entry_eq_ok_iff.mp entry
  rw [Disk.entryAt?] at there
  split at there
  · cases there
  · have member : (Disk.location reached, DiskEntry.file content modified) ∈
        [("demo", .directory), ("demo/.scion", .directory)] := Keyed.get?_eq_some_iff.mp there
    simp at member

/-- A session with one save between a learning and its refresh. -/
theorem session_eq_demo : ∃ knowledge plain cut answers,
    demoStore.loadKnowledge bareDisk "demo" default = .ok knowledge ∧
      demoStore.session knowledge [.act (.add (demoLearning "a.py") default),
        .act (.refresh "a.py" (.still bareDisk) "/demo" default)] = .ok (plain, answers) ∧
      demoStore.session knowledge [.act (.add (demoLearning "a.py") default),
        .reload bareDisk "demo" default default,
        .act (.refresh "a.py" (.still bareDisk) "/demo" default)] = .ok (cut, answers) ∧
      cut.learnings = plain.learnings := by
  have absent : bareDisk.readText demoStore.knowledgePath = .error .missing := by decide +kernel
  have valid : (default : Instant).IsValid := by decide +kernel
  have interrupts : demoStore.Interrupts (demoStore.freshKnowledge "demo" default)
      [.add (demoLearning "a.py") default,
        .refresh "a.py" (.still bareDisk) "/demo" default]
      [.act (.add (demoLearning "a.py") default), .reload bareDisk "demo" default default,
        .act (.refresh "a.py" (.still bareDisk) "/demo" default)] :=
    .act (.same _) (.reload canWrite_bareDisk valid "demo" default (.act (.same _) (.nil _)))
  have given : ∀ action ∈ [KnowledgeAction.add (demoLearning "a.py") default,
      .refresh "a.py" (.still bareDisk) "/demo" default], action.IsRepresentable := by
    intro action member
    rcases List.mem_pair.mp member with rfl | rfl
    · exact ⟨isRepresentable_demoLearning "a.py", valid⟩
    · exact ⟨isTimed_bareDisk, valid⟩
  obtain ⟨knowledge, plain, cut, answers, loaded, isPlain, isCut, same, -⟩ :=
    session_eq_of_interrupts absent valid given (by simp) interrupts
  exact ⟨knowledge, plain, cut, answers, loaded, isPlain, isCut, same⟩

/-- Knowledge of a learning whose source is the document of knowledge itself. -/
def selfKnowledge : Knowledge :=
  ((demoStore.freshKnowledge "demo" default).perform
    (.add (demoLearning ".scion/knowledge.json") default)).1

theorem isSound_selfKnowledge : demoStore.IsSound selfKnowledge := by
  have valid : (default : Instant).IsValid := by decide +kernel
  exact (demoStore.isSound_freshKnowledge valid "demo").perform
    ⟨isRepresentable_demoLearning _, valid⟩ nofun

/-- A learning whose source is the document of knowledge itself is refreshed differently when the
document has been saved. -/
theorem refresh_of_saved_document : ∃ knowledge plain cut saved,
    demoStore.loadKnowledge bareDisk "demo" default = .ok knowledge ∧
      (demoStore.saveKnowledge
        (knowledge.perform (.add (demoLearning ".scion/knowledge.json") default)).1
          default).runOn bareDisk = (.ok (), saved) ∧
      demoStore.session knowledge [.act (.add (demoLearning ".scion/knowledge.json") default),
        .act (.refresh "a.py" (.still bareDisk) "/demo" default)] =
          .ok (plain, [.done, .failed (.notFound .file ".scion/knowledge.json")]) ∧
      demoStore.session knowledge [.act (.add (demoLearning ".scion/knowledge.json") default),
        .reload bareDisk "demo" default default,
        .act (.refresh "a.py" (.still saved) "/demo" default)] =
          .ok (cut, [.done, .refreshed (.refreshed 2)]) := by
  have valid : (default : Instant).IsValid := by decide +kernel
  obtain ⟨made, reached, makes, free⟩ := exists_makes_of_writeDocument
    demoStore.isPlain_dataDirectory isEntryName_knowledge (canWrite_bareDisk .null default)
  have evaluated : (selfKnowledge.learning? "a.py").map (fun learning =>
      (learning.sourceRef, learning.version)) =
        some (some ⟨".scion/knowledge.json", "", ⟨1, 0⟩, none⟩, 1) := by
    decide +kernel
  obtain ⟨learning, isLearning, seen⟩ := Option.map_eq_some_iff.mp evaluated
  obtain ⟨isReference, isVersion⟩ := Prod.mk.inj seen
  have document : Path.resolve "/demo" ".scion/knowledge.json" = demoStore.knowledgePath := by
    decide +kernel
  -- In the plain session the document is not there.
  have absent : bareDisk.modified (Path.resolve "/demo" ".scion/knowledge.json") =
      .error .missing := by decide +kernel
  have refused := Knowledge.perform_refresh_of_missing isLearning isReference absent default
  -- In the other session it has been written.
  have entry : (savedOn made reached selfKnowledge default).entry
      (Path.resolve "/demo" ".scion/knowledge.json") =
        .ok (.file (stamped selfKnowledge default).toJson.pretty.toUTF8 default) := by
    rw [document]
    have leads := (Disk.locate_resolve_eq_ok_iff demoStore.isPlain_dataDirectory
      isEntryName_knowledge).mpr ⟨reached, makes.located, makes.isDirectory, rfl⟩
    exact Disk.entry_eq_ok_iff.mpr ⟨_, free.keepsDirectories.locate leads, Disk.entryAt?_replaced⟩
  have found : (stamped selfKnowledge default).learning? "a.py" = some learning := isLearning
  have refreshed := Knowledge.perform_refresh_of_changed found isReference entry (by decide)
    (Digest.sha256_ne_empty _) default
  rw [isVersion] at refreshed
  have learned : demoStore.takeStep (demoStore.freshKnowledge "demo" default)
      (.act (.add (demoLearning ".scion/knowledge.json") default)) =
        .ok (selfKnowledge, some .done) := by
    have answer : ((demoStore.freshKnowledge "demo" default).perform
        (.add (demoLearning ".scion/knowledge.json") default)).2 = .done := by
      rw [Knowledge.perform, Knowledge.addLearning_eq_ok_iff.mpr ⟨rfl, rfl⟩]
    rw [takeStep, answer]
    rfl
  have plain : demoStore.takeStep selfKnowledge
      (.act (.refresh "a.py" (.still bareDisk) "/demo" default)) =
        .ok (selfKnowledge, some (.failed (.notFound .file ".scion/knowledge.json"))) := by
    rw [takeStep, refused]
  have cut : ∃ after, demoStore.takeStep (stamped selfKnowledge default)
      (.act (.refresh "a.py" (.still (savedOn made reached selfKnowledge default)) "/demo"
        default)) = .ok (after, some (.refreshed (.refreshed 2))) :=
    ⟨_, by rw [takeStep, refreshed]; rfl⟩
  obtain ⟨after, cut⟩ := cut
  have reloaded : demoStore.takeStep selfKnowledge (.reload bareDisk "demo" default default) =
      .ok (stamped selfKnowledge default, none) :=
    takeStep_reload isSound_selfKnowledge canWrite_bareDisk valid default
  exact ⟨demoStore.freshKnowledge "demo" default, selfKnowledge, after, _,
    loadKnowledge_of_missing (by decide +kernel), runOn_saveKnowledge makes free,
    session_cons_of_takeStep learned (session_cons_of_takeStep plain rfl),
    session_cons_of_takeStep learned (session_cons_of_takeStep reloaded
      (session_cons_of_takeStep cut rfl))⟩

end Store

end CodeAtlas
