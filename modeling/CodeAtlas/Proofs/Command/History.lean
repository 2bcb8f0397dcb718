import CodeAtlas.Proofs.Command.Effect
import CodeAtlas.Proofs.Store.Holding

/-!
# What a history of commands leaves

A user gives one command after the other in a project, and edits files in between.  The learnings
that the project holds then recount the history: each is of a module that was learned, with what
was last told about it, and its version counts how often it was renewed.
-/

namespace CodeAtlas

open Command Store

/-- One turn of a user: a command, when it was given, and what the user saw of it. -/
structure Turn where
  invocation : Invocation
  at_ : Instant
  outcome : Outcome

/-- Whether a command can change what is known of modules. -/
def Command.IsTeaching : Command → Prop
  | .learn _ | .refresh _ => True
  | _ => False

namespace Turn

/-- What was learned about a module in a turn, and when. -/
def lesson? (turn : Turn) (module : String) : Option (LearnRequest × Instant) :=
  match turn.invocation.command with
  | .learn request =>
      if turn.outcome.exit = 0 ∧ request.module = module then some (request, turn.at_) else none
  | _ => none

/-- Whether the learning of a module was replaced in a turn, or was refreshed and a new version
reported. -/
def renews (turn : Turn) (module : String) : Bool :=
  turn.outcome.exit = 0 && match turn.invocation.command with
    | .learn request => request.module = module && request.relearn
    | .refresh path =>
        path = module && turn.outcome.output.startsWith (module ++ " refreshed to ")
    | _ => false

/-- A turn in which nothing was learned or renewed. -/
def IsQuiet (turn : Turn) (module : String) : Prop :=
  turn.lesson? module = none ∧ turn.renews module = false

end Turn

/-- What was learned about a module, in the order in which it was. -/
def lessons (module : String) (history : List Turn) : List (LearnRequest × Instant) :=
  history.filterMap (·.lesson? module)

/-- How often the learning of a module was renewed. -/
def renewals (module : String) (history : List Turn) : Nat := history.countP (·.renews module)

/-- A learning is what a user told of a module. -/
structure Learning.IsOf (learning : Learning) (request : LearnRequest) : Prop where
  modulePath : learning.modulePath = request.module
  summary : learning.summary = request.summary
  purpose : learning.purpose = request.purpose.getD ""
  functions : learning.keyFunctions = .ofList (request.functions.map Run.functionEntry)
  gotchas : learning.gotchas = request.gotchas

/-- A learning recounts a history: there is none of a module that was never learned, and else it is
what was learned last, since it was learned first, in a version that counts the renewals. -/
inductive Recounts (history : List Turn) (module : String) : Option Learning → Prop
  | unlearned (never : lessons module history = []) (unrenewed : renewals module history = 0) :
      Recounts history module none
  | learned {learning : Learning} {first last : LearnRequest × Instant}
      (isFirst : (lessons module history).head? = some first) (isNew : first.1.relearn = false)
      (isLast : (lessons module history).getLast? = some last)
      (isOf : learning.IsOf last.1) (isModule : learning.modulePath = module)
      (learnedAt : learning.learnedAt = first.2)
      (version : learning.version = (1 + renewals module history) % 2 ^ 32) :
      Recounts history module (some learning)

/-- A turn is taken in the project at a place: some arguments that ask for its command are run in
the state before, and leave the state after. -/
structure Takes (libraries : Libraries) (base : List String) (before : Disk) (turn : Turn)
    (after : Disk) : Prop where
  runs : ∃ arguments, Invocation.ofArguments arguments = .ok turn.invocation ∧
    runArguments libraries arguments before turn.at_ = (turn.outcome, after)
  located : before.locate turn.invocation.root = .ok base
  notClear : turn.invocation.command ≠ .clear
  timed : before.IsTimed
  valid : turn.at_.IsValid

/-- The states that a project can be in after a history, if its data directory was empty before it
and no edit between the turns changed that directory. -/
inductive Reaches (libraries : Libraries) (base : List String) : List Turn → Disk → Prop
  | start {root : String} {disk : Disk} (tree : disk.IsTree)
      (located : disk.locate root = .ok base) (isDirectory : disk.entryAt? base = some .directory)
      (unused : IsUnused base disk) : Reaches libraries base [] disk
  | edit {history : List Turn} {before after : Disk}
      (reached : Reaches libraries base history before)
      (edits : EditsOutside base before after) : Reaches libraries base history after
  | turn {history : List Turn} {before after : Disk} {turn : Turn}
      (reached : Reaches libraries base history before)
      (takes : Takes libraries base before turn after) :
      Reaches libraries base (history ++ [turn]) after

/-! ## Turns in which nothing was learned -/

namespace Turn

variable {turn : Turn} {module : String}

theorem isQuiet_of_failed (failed : turn.outcome.exit ≠ 0) (module : String) :
    turn.IsQuiet module := by
  constructor
  · rw [lesson?]
    split
    · rw [if_neg fun success => failed success.1]
    · rfl
  · rw [renews, decide_eq_false failed, Bool.false_and]

theorem isQuiet_of_not_isTeaching (other : ¬turn.invocation.command.IsTeaching)
    (module : String) : turn.IsQuiet module := by
  rw [IsQuiet, lesson?, renews]
  generalize turn.invocation.command = command at other
  cases command with
  | learn | refresh => exact absurd trivial other
  | _ => exact ⟨rfl, Bool.and_false _⟩

/-- What is told of a learning that is up to date tells of no version. -/
theorem not_startsWith_refreshed (module : String) :
    ¬(Run.line (module ++ " is up to date")).startsWith (module ++ " refreshed to ") = true := by
  rw [String.startsWith_string_iff, Run.line]
  simp only [String.toList_append, List.append_assoc, List.prefix_append_right_inj]
  decide

theorem isQuiet_of_tells (tells : turn.invocation.command.Tells turn.outcome.output)
    (module : String) : turn.IsQuiet module := by
  rw [IsQuiet, lesson?, renews]
  generalize turn.invocation.command = command at tells
  generalize turn.outcome.output = output at tells
  cases tells with
  | fresh path =>
      refine ⟨rfl, ?_⟩
      by_cases same : path = module
      · simp [same, not_startsWith_refreshed]
      · simp [same]
  | find | impact | stale | migrate => exact ⟨rfl, Bool.and_false _⟩

end Turn

theorem Command.Outputs.not_isTeaching {reader : SyntaxReader} {command : Command}
    {now : Instant} {document : Document} {value : Json}
    (outputs : command.Outputs reader now document value) :
    ¬command.IsTeaching := by
  cases outputs <;> exact id

theorem Command.Changes.isTeaching {command : Command} {disk : Disk} {root output : String}
    {now : Instant} {knowledge changed : Knowledge}
    (changes : command.Changes disk root now knowledge changed output) : command.IsTeaching := by
  cases changes <;> exact trivial

/-! ## Histories that go on -/

section

variable {history : List Turn} {turn : Turn} {module : String} {learning : Option Learning}

theorem lessons_concat (module : String) (history : List Turn) (turn : Turn) :
    lessons module (history ++ [turn]) = lessons module history ++ (turn.lesson? module).toList := by
  rw [lessons, List.filterMap_append, List.filterMap_cons, List.filterMap_nil]
  cases turn.lesson? module <;> rfl

theorem renewals_concat (module : String) (history : List Turn) (turn : Turn) :
    renewals module (history ++ [turn]) =
      renewals module history + if turn.renews module = true then 1 else 0 := by
  rw [renewals, List.countP_append, List.countP_singleton]
  rfl

/-- A turn in which nothing was learned changes nothing of what a learning has to recount. -/
theorem Recounts.concat_of_isQuiet (recounts : Recounts history module learning)
    (quiet : turn.IsQuiet module) : Recounts (history ++ [turn]) module learning := by
  have sameLessons : lessons module (history ++ [turn]) = lessons module history := by
    rw [lessons_concat, quiet.1, Option.toList_none, List.append_nil]
  have sameRenewals : renewals module (history ++ [turn]) = renewals module history := by
    rw [renewals_concat, quiet.2, if_neg Bool.false_ne_true, Nat.add_zero]
  cases recounts with
  | unlearned never unrenewed =>
      exact .unlearned (sameLessons.trans never) (sameRenewals.trans unrenewed)
  | learned isFirst isNew isLast isOf isModule learnedAt version =>
      rw [← sameLessons] at isFirst isLast
      rw [← sameRenewals] at version
      exact .learned isFirst isNew isLast isOf isModule learnedAt version

/-- The version after a renewal. -/
theorem nextVersion_renewals {version count : Nat} (isVersion : version = (1 + count) % 2 ^ 32) :
    Knowledge.nextVersion version = (1 + (count + 1)) % 2 ^ 32 := by
  rw [isVersion, Knowledge.nextVersion]
  change ((1 + count) % 2 ^ 32 + 1) % 2 ^ 32 = _
  omega

end

/-! ## Turns in which something was learned -/

section

variable {history : List Turn} {turn : Turn} {request : LearnRequest} {module path : String}
  {reference : CodeReference} {knowledge changed : Knowledge} {disk : Disk} {root output : String}

namespace Turn

section

variable (isCommand : turn.invocation.command = .learn request)
  (success : turn.outcome.exit = 0)

include isCommand

theorem isQuiet_of_learn_other (other : request.module ≠ module) : turn.IsQuiet module := by
  rw [IsQuiet, lesson?, renews, isCommand]
  simp [other]

include success

theorem lesson?_of_learn : turn.lesson? request.module = some (request, turn.at_) := by
  rw [lesson?, isCommand]
  exact if_pos ⟨success, rfl⟩

theorem renews_of_learn : turn.renews request.module = request.relearn := by
  rw [renews, isCommand]
  simp [success]

end

section

variable (isCommand : turn.invocation.command = .refresh path)

include isCommand

theorem isQuiet_of_refresh_other (other : path ≠ module) : turn.IsQuiet module := by
  rw [IsQuiet, lesson?, renews, isCommand]
  simp [other]

theorem lesson?_of_refresh (module : String) : turn.lesson? module = none := by
  rw [lesson?, isCommand]

theorem renews_of_refreshed {version : Nat} (ends : turn.outcome =
    ⟨Run.line (path ++ " refreshed to " ++ Run.versioned version), none, 0⟩) :
    turn.renews path = true := by
  have told : (Run.line (path ++ " refreshed to " ++ Run.versioned version)).startsWith
      (path ++ " refreshed to ") = true := by
    rw [String.startsWith_string_iff]
    exact ⟨(Run.line (Run.versioned version)).toList, by simp [Run.line]⟩
  rw [renews, isCommand, ends]
  simp [told]

end

end Turn

/-- What is stored of a learning that a user gives. -/
theorem Run.isOf_learningOf (request : LearnRequest) (reference : CodeReference) (now : Instant)
    (version : Nat) (learnedAt updatedAt : Instant) :
    Learning.IsOf { (Run.learningOf request reference now).normalize with
      version, learnedAt, updatedAt } request :=
  ⟨rfl, rfl, rfl, rfl, rfl⟩

variable (recounts : ∀ module, Recounts history module (knowledge.learning? module))

include recounts

/-- A module that was never learned is learned. -/
theorem recounts_of_learned (isCommand : turn.invocation.command = .learn request)
    (success : turn.outcome.exit = 0) (isNew : request.relearn = false)
    (adds : knowledge.addLearning (Run.learningOf request reference turn.at_) turn.at_ =
      .ok changed) (module : String) :
    Recounts (history ++ [turn]) module (changed.learning? module) := by
  obtain ⟨unknown, rfl⟩ := Knowledge.addLearning_eq_ok_iff.mp adds
  rw [Knowledge.learning?_putLearning]
  split
  next isModule =>
    have isModule : module = request.module := isModule
    subst isModule
    have old := recounts request.module
    rw [show knowledge.learning? request.module = none from unknown] at old
    cases old with
    | unlearned never unrenewed =>
        have isLesson : lessons request.module (history ++ [turn]) = [(request, turn.at_)] := by
          rw [lessons_concat, never, Turn.lesson?_of_learn isCommand success]
          rfl
        have noRenewal : renewals request.module (history ++ [turn]) = 0 := by
          rw [renewals_concat, unrenewed, Turn.renews_of_learn isCommand success, isNew]
          rfl
        have isFirst : (lessons request.module (history ++ [turn])).head? =
            some (request, turn.at_) := by rw [isLesson, List.head?_singleton]
        have isLast : (lessons request.module (history ++ [turn])).getLast? =
            some (request, turn.at_) := by rw [isLesson, List.getLast?_singleton]
        refine .learned isFirst isNew isLast (Run.isOf_learningOf ..) rfl rfl ?_
        rw [noRenewal]
        rfl
  next other =>
    exact (recounts module).concat_of_isQuiet
      (Turn.isQuiet_of_learn_other isCommand (Ne.symm other))

/-- A learning is replaced. -/
theorem recounts_of_relearned {version : Nat} (isCommand : turn.invocation.command = .learn request)
    (success : turn.outcome.exit = 0) (isOld : request.relearn = true)
    (relearns : knowledge.relearn (Run.learningOf request reference turn.at_) turn.at_ =
      .ok (changed, version)) (module : String) :
    Recounts (history ++ [turn]) module (changed.learning? module) := by
  obtain ⟨previous, isPrevious, rfl, rfl⟩ := Knowledge.relearn_eq_ok_iff.mp relearns
  rw [Knowledge.learning?_putLearning]
  split
  next isModule =>
    have isModule : module = request.module := isModule
    subst isModule
    have old := recounts request.module
    rw [show knowledge.learning? request.module = some previous from isPrevious] at old
    cases old with
    | @learned _ first _ isFirst isNew _ _ _ learnedAt version =>
        have isLesson := lessons_concat request.module history turn
        rw [Turn.lesson?_of_learn isCommand success] at isLesson
        have renewed := renewals_concat request.module history turn
        rw [Turn.renews_of_learn isCommand success, isOld, if_pos rfl] at renewed
        have stillFirst : (lessons request.module (history ++ [turn])).head? = some first := by
          rw [isLesson, List.head?_append, isFirst, Option.some_or]
        have isLast : (lessons request.module (history ++ [turn])).getLast? =
            some (request, turn.at_) := by
          rw [isLesson]
          exact List.getLast?_concat
        refine .learned stillFirst isNew isLast (Run.isOf_learningOf ..) rfl learnedAt ?_
        rw [renewed]
        exact nextVersion_renewals version
  next other =>
    exact (recounts module).concat_of_isQuiet
      (Turn.isQuiet_of_learn_other isCommand (Ne.symm other))

/-- The source of a learning is captured anew. -/
theorem recounts_of_refreshed {version : Nat} (isCommand : turn.invocation.command = .refresh path)
    (ends : turn.outcome =
      ⟨Run.line (path ++ " refreshed to " ++ Run.versioned version), none, 0⟩)
    (refreshes : knowledge.refresh path disk root turn.at_ = .ok (changed, .refreshed version))
    (module : String) : Recounts (history ++ [turn]) module (changed.learning? module) := by
  obtain ⟨-, impossible⟩ | ⟨learning, -, captured, isLearning, -, -, rfl, -⟩ :=
    Knowledge.refreshAcross_cases refreshes
  · cases impossible
  rw [Knowledge.learning?, Keyed.get?_insert]
  split
  next isModule =>
    subst isModule
    have old := recounts module
    rw [isLearning] at old
    cases old with
    | learned isFirst isNew isLast isOf isModule learnedAt version =>
        have sameLessons := lessons_concat module history turn
        rw [Turn.lesson?_of_refresh isCommand, Option.toList_none, List.append_nil] at sameLessons
        have renewed := renewals_concat module history turn
        rw [Turn.renews_of_refreshed isCommand ends, if_pos rfl] at renewed
        rw [← sameLessons] at isFirst isLast
        refine .learned isFirst isNew isLast
          ⟨isOf.modulePath, isOf.summary, isOf.purpose, isOf.functions, isOf.gotchas⟩ isModule
          learnedAt ?_
        rw [renewed]
        exact nextVersion_renewals version
  next other =>
    exact (recounts module).concat_of_isQuiet
      (Turn.isQuiet_of_refresh_other isCommand (Ne.symm other))

/-- However knowledge is changed in a turn, it recounts the history with the turn. -/
theorem recounts_of_changes
    (changes : turn.invocation.command.Changes disk root turn.at_ knowledge changed output)
    (ends : turn.outcome = ⟨output, none, 0⟩) (module : String) :
    Recounts (history ++ [turn]) module (changed.learning? module) := by
  have success : turn.outcome.exit = 0 := by rw [ends]
  generalize isCommand : turn.invocation.command = command at changes
  cases changes with
  | learned isNew _ adds => exact recounts_of_learned recounts isCommand success isNew adds module
  | relearned isOld _ relearns =>
      exact recounts_of_relearned recounts isCommand success isOld relearns module
  | refreshed refreshes => exact recounts_of_refreshed recounts isCommand ends refreshes module

end

/-! ## Turns in a project -/

section

variable {libraries : Libraries} {base : List String} {before after : Disk} {turn : Turn}
  {learnings : Keyed Learning} {store : Store} {knowledge changed : Knowledge}
  {command : Command} {now : Instant} {root output : String}

/-- A learning that a user gives can be held by a document. -/
theorem Run.isRepresentable_learningOf {request : LearnRequest} {reference : CodeReference}
    (timed : before.IsTimed) (valid : now.IsValid)
    (captured : CodeReference.capture before root request.module none = .ok reference) :
    (Run.learningOf request reference now).IsRepresentable := by
  obtain ⟨modified, content, isModified, -, rfl⟩ :=
    CodeReference.captureBetween_eq_ok_iff.mp captured
  have source (found : CodeReference) (isFound : some ⟨request.module, Digest.sha256 content,
      modified, none⟩ = some found) : found.IsRepresentable := by
    cases isFound
    exact ⟨timed _ modified isModified, nofun⟩
  have confidence : (Run.learningOf request ⟨request.module, Digest.sha256 content, modified,
      none⟩ now).confidence.IsProper := by
    dsimp only [Run.learningOf, Learning.blank]
    exact Ieee.isProper_ofNat (by decide) 1
  exact ⟨confidence, Nat.one_lt_two_pow (by decide), source, valid, valid⟩

/-- What a command changes of knowledge is an operation on it, with what a document can hold. -/
theorem Command.Changes.exists_action
    (changes : command.Changes before root now knowledge changed output) (timed : before.IsTimed)
    (valid : now.IsValid) :
    ∃ action : KnowledgeAction, action.IsRepresentable ∧
      (∀ count, action ≠ .limit count) ∧ (knowledge.perform action).1 = changed := by
  have given {request : LearnRequest} {reference : CodeReference}
      (captured : CodeReference.capture before root request.module none = .ok reference) :
      (Run.learningOf request reference now).IsRepresentable :=
    Run.isRepresentable_learningOf timed valid captured
  cases changes with
  | @learned request reference _ _ captured adds =>
      refine ⟨.add (Run.learningOf request reference now) now, ⟨given captured, valid⟩,
        by simp, ?_⟩
      rw [Knowledge.perform, adds]
  | @relearned request reference _ _ _ captured relearns =>
      refine ⟨.relearn (Run.learningOf request reference now) now, ⟨given captured, valid⟩,
        by simp, ?_⟩
      rw [Knowledge.perform, relearns]
  | @refreshed module _ _ refreshes =>
      refine ⟨.refresh module (.still before) root now, ⟨timed, valid⟩, by simp, ?_⟩
      have across : knowledge.refreshAcross module (.still before) root now = _ := refreshes
      rw [Knowledge.perform, across]

/-- Sound knowledge stays sound when a command changes it and records the run. -/
theorem Command.Changes.isSound
    (changes : command.Changes before root now knowledge changed output) (timed : before.IsTimed)
    (valid : now.IsValid) (sound : store.IsSound knowledge) (kind : RunKind) (detail : String) :
    store.IsSound (changed.recordRun kind detail now) := by
  obtain ⟨action, given, constant, rfl⟩ := changes.exists_action timed valid
  have recorded : KnowledgeAction.IsRepresentable (.record ⟨kind, now, detail⟩) := valid
  exact (sound.perform given constant).perform recorded nofun

/-- A turn has an effect of a command, and the user sees what came of it. -/
theorem Store.Holds.exists_effect (holds : Holds base before learnings)
    (takes : Takes libraries base before turn after) :
    ∃ result, turn.outcome = .ofResult libraries.wording result ∧
      Effect libraries.reader ⟨turn.invocation.root, .default⟩ base turn.at_ before
        turn.invocation.command (result, after) := by
  obtain ⟨arguments, parsed, ran⟩ := takes.runs
  rw [Run.runArguments_eq parsed] at ran
  obtain ⟨sameOutcome, rfl⟩ := Prod.ext_iff.mp ran
  have home := holds.isHome takes.located
  exact ⟨_, sameOutcome.symm, Run.effect_of_run home (holds.embedsNothing home)
    (holds.open_eq takes.located) takes.notClear turn.at_⟩

/-- A turn leaves the learnings as they are and nothing was learned, or it changes them as its
command does. -/
theorem Store.Holds.takes (holds : Holds base before learnings)
    (takes : Takes libraries base before turn after) :
    Holds base after learnings ∧ (∀ module, turn.IsQuiet module) ∨
      ∃ knowledge changed output, knowledge.learnings = learnings ∧
        turn.invocation.command.Changes before turn.invocation.root turn.at_ knowledge changed
          output ∧
        turn.outcome = ⟨output, none, 0⟩ ∧ Holds base after changed.learnings := by
  obtain ⟨result, isOutcome, effect⟩ := holds.exists_effect takes
  have home := holds.isHome takes.located
  have failed {failure : Failure} (error : result = .error failure) : turn.outcome.exit ≠ 0 := by
    rw [isOutcome, error]
    exact Nat.one_ne_zero
  generalize ran : (result, after) = ended at effect
  cases effect with
  | stopped failure =>
      cases ran
      exact .inl ⟨holds, Turn.isQuiet_of_failed (failed rfl)⟩
  | told tells =>
      cases ran
      refine .inl ⟨holds, Turn.isQuiet_of_tells ?_⟩
      rw [isOutcome]
      exact tells
  | published output outputs publishes =>
      cases ran
      exact .inl ⟨holds.of_publishes home rfl takes.valid publishes outputs.ne_knowledge
        (outputs.exists_graph takes.valid),
        Turn.isQuiet_of_not_isTeaching outputs.not_isTeaching⟩
  | @learned project knowledge changed kind detail output _ _ loaded changes writes =>
      obtain ⟨known, isKnown, sound, isLearnings⟩ :=
        holds.loadKnowledge home rfl takes.valid project
      cases isKnown.symm.trans loaded
      have saved := changes.isSound takes.timed takes.valid sound kind detail
      cases ran
      obtain ⟨rfl, held⟩ | ⟨⟨problem, rfl⟩, held⟩ :=
        holds.of_writes_knowledge rfl takes.valid saved writes
      · exact .inr ⟨knowledge, changed, output, isLearnings, changes, isOutcome, held⟩
      · exact .inl ⟨held, Turn.isQuiet_of_failed (failed rfl)⟩

/-- What a project holds recounts the history that led to it. -/
theorem Reaches.exists_holds {history : List Turn}
    (reached : Reaches libraries base history after) :
    ∃ learnings, Holds base after learnings ∧
      ∀ module, Recounts history module (learnings.get? module) := by
  induction reached with
  | start tree located isDirectory unused =>
      exact ⟨.empty, unused.holds tree located isDirectory, fun _ => .unlearned rfl rfl⟩
  | edit _ edits induction =>
      obtain ⟨learnings, holds, recounts⟩ := induction
      exact ⟨learnings, holds.edited edits, recounts⟩
  | turn _ takes induction =>
      obtain ⟨learnings, holds, recounts⟩ := induction
      obtain ⟨held, quiet⟩ | ⟨knowledge, changed, output, rfl, changes, ends, held⟩ :=
        holds.takes takes
      · exact ⟨learnings, held, fun module => (recounts module).concat_of_isQuiet (quiet module)⟩
      · exact ⟨changed.learnings, held, recounts_of_changes recounts changes ends⟩

end

/-- Arguments that tell of a module, and what they ask for. -/
def learnArguments : List String :=
  ["learn", "a.py", "Sets a number", "--root", "/demo", "--gotcha", "none"]

def learnRequest : LearnRequest := ⟨"a.py", "Sets a number", none, [], ["none"], false⟩

def learnInvocation : Invocation := ⟨.learn learnRequest, "/demo", none⟩

theorem isTimed_sourceDisk : sourceDisk.IsTimed := by
  intro path modified isModified
  obtain ⟨content, entry⟩ := Disk.modified_eq_ok_iff.mp isModified
  obtain ⟨reached, -, there⟩ := Disk.entry_eq_ok_iff.mp entry
  rw [Disk.entryAt?] at there
  split at there
  · cases there
  · have member : (Disk.location reached, DiskEntry.file content modified) ∈
        [("demo", .directory), ("demo/a.py", .file "x = 1\n".toUTF8 default)] :=
      Keyed.get?_eq_some_iff.mp there
    simp only [List.mem_cons, Prod.mk.injEq, reduceCtorEq, and_false, DiskEntry.file.injEq,
      List.not_mem_nil, or_false, false_or] at member
    rw [member.2.2]
    decide +kernel

theorem isUnused_sourceDisk : IsUnused ["demo"] sourceDisk where
  noFile := by
    have absent : sourceDisk.entryAt? (dataPlace ["demo"]) = none :=
      Option.isNone_iff_eq_none.mp (by decide +kernel)
    rw [absent]
    exact nofun
  empty := by
    intro name
    rw [Option.eq_none_iff_forall_ne_some]
    intro entry found
    have member : (Disk.location (name :: dataPlace ["demo"]), entry) ∈
        [("demo", .directory), ("demo/a.py", .file "x = 1\n".toUTF8 default)] :=
      Keyed.get?_eq_some_iff.mp found
    have within : Disk.location (name :: dataPlace ["demo"]) = "demo/.scion/" ++ name :=
      Disk.location_cons_eq name _
    simp only [within, List.mem_cons, Prod.mk.injEq, List.not_mem_nil, or_false] at member
    obtain ⟨same, -⟩ | ⟨same, -⟩ := member <;>
      exact absurd (congrArg String.toList same) (by simp)

end CodeAtlas
