import CodeAtlas.Proofs.Keyed
import CodeAtlas.Proofs.Knowledge.Confidence
import CodeAtlas.Proofs.Results

/-!
# Sequences of operations on knowledge

What one operation does to knowledge, and from it what any sequence of operations preserves: every
learning stands under its own path with a confidence between zero and one, versions count the
changes of a learning, decisions are only added, and the runs are the last ones that were recorded.
-/

namespace CodeAtlas

/-- An operation on knowledge in memory, with the time and the disk that it sees. -/
inductive KnowledgeAction
  | add (learning : Learning) (now : Instant)
  | relearn (learning : Learning) (now : Instant)
  | refresh (path : String) (views : Knowledge.DiskViews) (root : String) (now : Instant)
  | adopt (learning : Learning)
  | remove (path : String)
  | decide (rationale : String) (modules : List String) (now : Instant)
  | note (name description : String)
  | record (run : RunRecord)
  | limit (count : Nat)

/-- What an operation answers. -/
inductive KnowledgeAnswer
  | done
  | relearned (version : Nat)
  | refreshed (outcome : Knowledge.RefreshOutcome)
  | adopted (taken : Bool)
  | removed (learning : Option Learning)
  | noted (previous : Option String)
  | failed (problem : Problem)

namespace KnowledgeAnswer

/-- An error, a learning that was not taken, and a source that needed no capture. -/
def IsRefusal : KnowledgeAnswer → Prop
  | .failed _ | .adopted false | .refreshed .alreadyFresh => True
  | _ => False

end KnowledgeAnswer

namespace Knowledge

/-- Knowledge after an operation, and the answer. -/
def perform (knowledge : Knowledge) : KnowledgeAction → Knowledge × KnowledgeAnswer
  | .add learning now =>
      match knowledge.addLearning learning now with
      | .ok added => (added, .done)
      | .error problem => (knowledge, .failed problem)
  | .relearn learning now =>
      match knowledge.relearn learning now with
      | .ok (changed, version) => (changed, .relearned version)
      | .error problem => (knowledge, .failed problem)
  | .refresh path views root now =>
      match knowledge.refreshAcross path views root now with
      | .ok (changed, outcome) => (changed, .refreshed outcome)
      | .error problem => (knowledge, .failed problem)
  | .adopt learning => ((knowledge.adoptLearning learning).1,
      .adopted (knowledge.adoptLearning learning).2)
  | .remove path => (knowledge.removeLearning path, .removed (knowledge.learning? path))
  | .decide rationale modules now => (knowledge.recordDecision rationale modules now, .done)
  | .note name description => ((knowledge.addPattern name description).1,
      .noted (knowledge.addPattern name description).2)
  | .record run => (knowledge.recordRun run.kind run.detail run.at_, .done)
  | .limit count => (knowledge.setRunLimit count, .done)

/-- Knowledge after operations, one after the other. -/
def performAll (knowledge : Knowledge) (actions : List KnowledgeAction) : Knowledge :=
  actions.foldl (fun state action => (state.perform action).1) knowledge

variable {knowledge changed : Knowledge} {learning : Learning} {path : String} {now : Instant}

/-! ## Learnings -/

theorem learning?_putLearning (knowledge : Knowledge) (learning : Learning) (other : String) :
    (knowledge.putLearning learning).learning? other =
      if other = learning.modulePath then some learning else knowledge.learning? other :=
  Keyed.get?_insert ..

theorem addLearning_eq_ok_iff : knowledge.addLearning learning now = .ok changed ↔
    knowledge.learning? learning.modulePath = none ∧ changed = knowledge.putLearning
      { learning.normalize with version := 1, learnedAt := now, updatedAt := now } := by
  rw [addLearning, learning?, ← Keyed.contains_eq_false_iff]
  split
  next taken => simp [taken]
  next free => simp [free, eq_comm]

theorem relearn_eq_ok_iff {version : Nat} : knowledge.relearn learning now = .ok (changed, version) ↔
    ∃ previous, knowledge.learning? learning.modulePath = some previous ∧
      version = nextVersion previous.version ∧ changed = knowledge.putLearning
        { learning.normalize with
          version, learnedAt := previous.learnedAt, updatedAt := now } := by
  rw [relearn]
  cases knowledge.learning? learning.modulePath with
  | none => simp
  | some previous =>
      simp only [Except.ok.injEq, Prod.mk.injEq, Option.some.injEq, exists_eq_left']
      constructor
      · rintro ⟨rfl, rfl⟩
        exact ⟨rfl, rfl⟩
      · rintro ⟨rfl, rfl⟩
        exact ⟨rfl, rfl⟩

/-- A refresh that succeeds finds nothing to do or captures the source of the learning. -/
theorem refreshAcross_cases {views : DiskViews} {root : String} {outcome : RefreshOutcome}
    (success : knowledge.refreshAcross path views root now = .ok (changed, outcome)) :
    changed = knowledge ∧ outcome = .alreadyFresh ∨
      ∃ learning reference captured, knowledge.learning? path = some learning ∧
        learning.sourceRef = some reference ∧
        CodeReference.captureBetween views.capturedTime views.capturedContent root
          reference.path reference.lines = .ok captured ∧
        changed = { knowledge with learnings := (knowledge.learnings.insert path
          { learning with
            sourceRef := some captured
            version := nextVersion learning.version
            updatedAt := now }) } ∧
        outcome = .refreshed (nextVersion learning.version) := by
  rw [refreshAcross] at success
  cases isLearning : knowledge.learning? path with
  | none => rw [isLearning] at success; cases success
  | some learning =>
      rw [isLearning] at success
      cases isReference : learning.sourceRef with
      | none =>
          simp only [isReference] at success
          cases success
          exact .inl ⟨rfl, rfl⟩
      | some reference =>
          simp only [isReference] at success
          split at success
          next stale =>
            obtain ⟨captured, isCaptured, returned⟩ := bind_eq_ok_iff.mp success
            cases returned
            exact .inr ⟨learning, reference, captured, rfl, isReference, isCaptured, rfl, rfl⟩
          next fresh =>
            cases success
            exact .inl ⟨rfl, rfl⟩

/-! ## The window of runs -/

theorem length_lastOf_le {α : Type} (count : Nat) (items : List α) :
    (lastOf count items).length ≤ count := by
  rw [lastOf, List.length_drop]
  omega

theorem lastOf_of_length_le {α : Type} {count : Nat} {items : List α}
    (few : items.length ≤ count) : lastOf count items = items := by
  rw [lastOf, Nat.sub_eq_zero_of_le few, List.drop_zero]

theorem mem_of_mem_lastOf {α : Type} {count : Nat} {items : List α} {item : α}
    (member : item ∈ lastOf count items) : item ∈ items :=
  List.mem_of_mem_drop member

theorem lastOf_suffix {α : Type} (count : Nat) (items : List α) : lastOf count items <:+ items :=
  List.drop_suffix _ _

end Knowledge

namespace KnowledgeAction

/-- The run that an operation records. -/
def run? : KnowledgeAction → Option RunRecord
  | .record run => some run
  | _ => none

/-- The limit of runs after an operation. -/
def limitAfter (limit : Nat) : KnowledgeAction → Nat
  | .limit count => count
  | _ => limit

/-- The runs that operations record. -/
def recorded (actions : List KnowledgeAction) : List RunRecord := actions.filterMap run?

/-- The limit of runs that operations leave. -/
def limitOf (actions : List KnowledgeAction) : Nat :=
  actions.foldl limitAfter Settings.defaultRunHistory

end KnowledgeAction

namespace Knowledge

open KnowledgeAction

variable {knowledge : Knowledge} {action : KnowledgeAction} {limit : Nat}

/-- What an operation can do to knowledge, with its answer. -/
inductive Performs (knowledge : Knowledge) :
    KnowledgeAction → Knowledge × KnowledgeAnswer → Prop
  | refused {action : KnowledgeAction} {answer : KnowledgeAnswer} (refusal : answer.IsRefusal)
      (unrecorded : action.run? = none) (unlimited : ∀ limit, action.limitAfter limit = limit) :
      knowledge.Performs action (knowledge, answer)
  | added (learning : Learning) (now : Instant) :
      knowledge.Performs (.add learning now) (knowledge.putLearning
        { learning.normalize with version := 1, learnedAt := now, updatedAt := now }, .done)
  | relearned (learning previous : Learning) (now : Instant)
      (isPrevious : knowledge.learning? learning.modulePath = some previous) :
      knowledge.Performs (.relearn learning now) (knowledge.putLearning
        { learning.normalize with
          version := nextVersion previous.version
          learnedAt := previous.learnedAt
          updatedAt := now }, .relearned (nextVersion previous.version))
  | refreshed (path : String) (views : DiskViews) (root : String) (now : Instant)
      (learning : Learning) (reference captured : CodeReference)
      (isLearning : knowledge.learning? path = some learning)
      (isReference : learning.sourceRef = some reference)
      (isCaptured : CodeReference.captureBetween views.capturedTime views.capturedContent root
        reference.path reference.lines = .ok captured) :
      knowledge.Performs (.refresh path views root now)
        ({ knowledge with learnings := (knowledge.learnings.insert path
          { learning with
            sourceRef := some captured
            version := nextVersion learning.version
            updatedAt := now }) }, .refreshed (.refreshed (nextVersion learning.version)))
  | adopted (learning : Learning) : knowledge.Performs (.adopt learning)
      (knowledge.putLearning learning.normalize, .adopted true)
  | removed (path : String) : knowledge.Performs (.remove path)
      (knowledge.removeLearning path, .removed (knowledge.learning? path))
  | decided (rationale : String) (modules : List String) (now : Instant) :
      knowledge.Performs (.decide rationale modules now)
        (knowledge.recordDecision rationale modules now, .done)
  | noted (name description : String) : knowledge.Performs (.note name description)
      ((knowledge.addPattern name description).1,
        .noted (knowledge.addPattern name description).2)
  | recorded (run : RunRecord) : knowledge.Performs (.record run)
      (knowledge.recordRun run.kind run.detail run.at_, .done)
  | limited (count : Nat) : knowledge.Performs (.limit count) (knowledge.setRunLimit count, .done)

theorem performs (knowledge : Knowledge) (action : KnowledgeAction) :
    knowledge.Performs action (knowledge.perform action) := by
  cases action with
  | add learning now =>
      rw [perform]
      cases success : knowledge.addLearning learning now with
      | error problem => exact .refused trivial rfl fun _ => rfl
      | ok changed =>
          obtain ⟨-, rfl⟩ := addLearning_eq_ok_iff.mp success
          exact .added learning now
  | relearn learning now =>
      rw [perform]
      cases success : knowledge.relearn learning now with
      | error problem => exact .refused trivial rfl fun _ => rfl
      | ok result =>
          obtain ⟨previous, isPrevious, isVersion, same⟩ := relearn_eq_ok_iff.mp success
          simp only [same, isVersion]
          exact .relearned learning previous now isPrevious
  | refresh path views root now =>
      rw [perform]
      cases success : knowledge.refreshAcross path views root now with
      | error problem => exact .refused trivial rfl fun _ => rfl
      | ok result =>
          obtain ⟨same, isOutcome⟩ |
              ⟨learning, reference, captured, isLearning, isReference, isCaptured, same,
                isOutcome⟩ := refreshAcross_cases success
          · simp only [same, isOutcome]
            exact .refused trivial rfl fun _ => rfl
          · simp only [same, isOutcome]
            exact .refreshed path views root now learning reference captured isLearning
              isReference isCaptured
  | adopt learning =>
      rw [perform, adoptLearning]
      split
      · exact .refused trivial rfl fun _ => rfl
      · exact .adopted learning
  | remove path => exact .removed path
  | decide rationale modules now => exact .decided rationale modules now
  | note name description => exact .noted name description
  | record run => exact .recorded run
  | limit count => exact .limited count

/-- A learning is revised: when it was first learned stays, its version is the next one, and
nothing else changes. -/
structure Revises (before after : Knowledge) (path : String) (version : Nat) : Prop where
  revised : ∃ old new, before.learning? path = some old ∧ after.learning? path = some new ∧
    new.learnedAt = old.learnedAt ∧ new.version = version ∧
    (old.version + 1 < 2 ^ 32 → version = old.version + 1)
  others : ∀ other, other ≠ path → after.learning? other = before.learning? other
  decisions : after.decisions = before.decisions
  patterns : after.patterns = before.patterns
  runs : after.runs = before.runs

theorem nextVersion_eq {version : Nat} (fits : version + 1 < 2 ^ 32) :
    nextVersion version = version + 1 :=
  Nat.mod_eq_of_lt fits

theorem Performs.revises {answered : Knowledge × KnowledgeAnswer} {version : Nat}
    (performs : knowledge.Performs action answered)
    (isVersion : answered.2 = .relearned version ∨ answered.2 = .refreshed (.refreshed version)) :
    (∃ learning now, action = .relearn learning now ∧
        knowledge.Revises answered.1 learning.modulePath version) ∨
      ∃ path views root now, action = .refresh path views root now ∧
        knowledge.Revises answered.1 path version := by
  cases performs with
  | relearned learning previous now isPrevious =>
      obtain same | impossible := isVersion
      · cases same
        have isNew := (learning?_putLearning knowledge { learning.normalize with
          version := nextVersion previous.version
          learnedAt := previous.learnedAt
          updatedAt := now } learning.modulePath).trans (if_pos rfl)
        refine .inl ⟨learning, now, rfl,
          ⟨previous, _, isPrevious, isNew, rfl, rfl, nextVersion_eq⟩, ?_, rfl, rfl, rfl⟩
        exact fun other different => (learning?_putLearning ..).trans (if_neg different)
      · cases impossible
  | refreshed path views root now learning reference captured isLearning =>
      obtain impossible | same := isVersion
      · cases impossible
      · cases same
        have isNew := (Keyed.get?_insert knowledge.learnings path path { learning with
          sourceRef := some captured
          version := nextVersion learning.version
          updatedAt := now }).trans (if_pos rfl)
        refine .inr ⟨path, views, root, now, rfl,
          ⟨learning, _, isLearning, isNew, rfl, rfl, nextVersion_eq⟩, ?_, rfl, rfl, rfl⟩
        exact fun other different => (Keyed.get?_insert ..).trans (if_neg different)
  | refused refusal unrecorded unlimited =>
      obtain rfl | rfl := isVersion <;> exact refusal.elim
  | added | adopted | removed | decided | noted | recorded | limited =>
      obtain impossible | impossible := isVersion <;> cases impossible

/-! ## What one operation preserves -/

/-- Every learning stands under the path of its own module, with a confidence between zero and
one. -/
def IsOwned (knowledge : Knowledge) : Prop :=
  ∀ path learning, knowledge.learning? path = some learning →
    learning.modulePath = path ∧ Learning.IsConfidence learning.confidence

theorem IsOwned.putLearning (owned : knowledge.IsOwned) {learning : Learning}
    (confidence : Learning.IsConfidence learning.confidence) :
    (knowledge.putLearning learning).IsOwned := by
  intro path found isFound
  rw [learning?_putLearning] at isFound
  split at isFound
  next same =>
    cases isFound
    exact ⟨same.symm, confidence⟩
  next => exact owned path found isFound

/-- One operation keeps learnings under their own paths. -/
theorem IsOwned.perform (owned : knowledge.IsOwned) (action : KnowledgeAction) :
    (knowledge.perform action).1.IsOwned := by
  generalize knowledge.perform action = answered, knowledge.performs action = performs
  cases performs with
  | refused => exact owned
  | added => exact owned.putLearning (Learning.isConfidence_normalConfidence _)
  | relearned => exact owned.putLearning (Learning.isConfidence_normalConfidence _)
  | adopted => exact owned.putLearning (Learning.isConfidence_normalConfidence _)
  | refreshed path views root now learning reference captured isLearning =>
      intro other found isFound
      rw [learning?, Keyed.get?_insert] at isFound
      split at isFound
      next same =>
        cases isFound
        exact same ▸ owned path learning isLearning
      next => exact owned other found isFound
  | removed path =>
      intro other found isFound
      rw [learning?, removeLearning, Keyed.get?_erase] at isFound
      split at isFound
      · cases isFound
      · exact owned other found isFound
  | decided | noted | recorded | limited => exact owned

/-- The limit of runs is at least one, and no more runs than that are kept. -/
structure IsLimited (knowledge : Knowledge) (limit : Nat) : Prop where
  runLimit : knowledge.runLimit = max limit 1
  bounded : knowledge.runs.length ≤ max limit 1

/-- The runs after an operation are the last ones of those before it and the one that it
records. -/
theorem IsLimited.runs_perform (limited : knowledge.IsLimited limit) (action : KnowledgeAction) :
    (knowledge.perform action).1.runLimit = max (limitAfter limit action) 1 ∧
      (knowledge.perform action).1.runs =
        lastOf (max (limitAfter limit action) 1) (knowledge.runs ++ action.run?.toList) := by
  have unchanged {changed : Knowledge} (runLimit : changed.runLimit = knowledge.runLimit)
      (runs : changed.runs = knowledge.runs) : changed.runLimit = max limit 1 ∧
        changed.runs = lastOf (max limit 1) (knowledge.runs ++ []) := by
    rw [List.append_nil, lastOf_of_length_le limited.bounded]
    exact ⟨runLimit.trans limited.runLimit, runs⟩
  generalize knowledge.perform action = answered, knowledge.performs action = performs
  cases performs with
  | refused refusal unrecorded unlimited =>
      rw [unrecorded, unlimited]
      exact unchanged rfl rfl
  | recorded run => exact ⟨limited.runLimit, congrArg (lastOf · _) limited.runLimit⟩
  | limited count =>
      refine ⟨rfl, ?_⟩
      exact congrArg (lastOf (max count 1)) (List.append_nil knowledge.runs).symm
  | added | relearned | refreshed | adopted | removed | decided | noted =>
      exact unchanged rfl rfl

theorem IsLimited.perform (limited : knowledge.IsLimited limit) (action : KnowledgeAction) :
    (knowledge.perform action).1.IsLimited (limitAfter limit action) := by
  obtain ⟨runLimit, runs⟩ := limited.runs_perform action
  exact ⟨runLimit, runs ▸ length_lastOf_le _ _⟩

/-- What is refused changes nothing. -/
theorem Performs.of_isRefusal {answered : Knowledge × KnowledgeAnswer}
    (performs : knowledge.Performs action answered) (refusal : answered.2.IsRefusal) :
    answered.1 = knowledge := by
  cases performs with
  | refused => rfl
  | _ => exact refusal.elim

/-- Decisions are only added, after those that are there. -/
theorem Performs.decisions {answered : Knowledge × KnowledgeAnswer}
    (performs : knowledge.Performs action answered) :
    knowledge.decisions <+: answered.1.decisions := by
  cases performs with
  | decided rationale modules now => exact List.prefix_append _ _
  | _ => exact List.prefix_rfl

/-! ## Sequences -/

variable {actions : List KnowledgeAction}

theorem IsOwned.performAll (owned : knowledge.IsOwned) (actions : List KnowledgeAction) :
    (knowledge.performAll actions).IsOwned := by
  induction actions generalizing knowledge with
  | nil => exact owned
  | cons action rest hypothesis => exact hypothesis (owned.perform action)

theorem IsLimited.performAll (limited : knowledge.IsLimited limit) (actions : List KnowledgeAction) :
    (knowledge.performAll actions).IsLimited (actions.foldl limitAfter limit) := by
  induction actions generalizing knowledge limit with
  | nil => exact limited
  | cons action rest hypothesis => exact hypothesis (limited.perform action)

theorem recorded_cons (action : KnowledgeAction) (rest : List KnowledgeAction) :
    recorded (action :: rest) = action.run?.toList ++ recorded rest := by
  rw [recorded, List.filterMap_cons]
  cases action.run? <;> rfl

/-- The runs end the runs that were there before and the ones recorded since. -/
theorem IsLimited.runs_suffix (limited : knowledge.IsLimited limit)
    (actions : List KnowledgeAction) :
    (knowledge.performAll actions).runs <:+ knowledge.runs ++ recorded actions := by
  induction actions generalizing knowledge limit with
  | nil => exact (List.append_nil knowledge.runs).symm ▸ List.suffix_append [] knowledge.runs
  | cons action rest hypothesis =>
      obtain ⟨front, appended⟩ : (knowledge.perform action).1.runs <:+
          knowledge.runs ++ action.run?.toList := by
        rw [(limited.runs_perform action).2]
        exact lastOf_suffix _ _
      refine (hypothesis (limited.perform action)).trans ⟨front, ?_⟩
      rw [recorded_cons, ← List.append_assoc, ← List.append_assoc, appended]

theorem lastOf_lastOf_append {α : Type} (count : Nat) (items more : List α) :
    lastOf count (lastOf count items ++ more) = lastOf count (items ++ more) := by
  simp only [lastOf, List.length_append, List.length_drop]
  rcases Nat.le_total items.length count with few | many
  · rw [Nat.sub_eq_zero_of_le few, List.drop_zero, Nat.sub_zero]
  · have dropped : items.drop (items.length - count) ++ more =
        (items ++ more).drop (items.length - count) :=
      (List.drop_append_of_le_length (Nat.sub_le _ _)).symm
    rw [dropped, List.drop_drop]
    congr 1
    omega

/-- While the limit stays, the runs are the last ones of those before and of the ones recorded
since. -/
theorem IsLimited.runs_performAll (limited : knowledge.IsLimited limit)
    (constant : ∀ count, KnowledgeAction.limit count ∉ actions) :
    (knowledge.performAll actions).runs =
      lastOf (max limit 1) (knowledge.runs ++ recorded actions) := by
  induction actions generalizing knowledge with
  | nil =>
      have all : knowledge.runs ++ recorded [] = knowledge.runs := List.append_nil _
      rw [all]
      exact (lastOf_of_length_le limited.bounded).symm
  | cons action rest hypothesis =>
      have same : limitAfter limit action = limit := by
        cases action with
        | limit count => exact absurd List.mem_cons_self (constant count)
        | _ => rfl
      have next := limited.perform action
      have runs := (limited.runs_perform action).2
      rw [same] at next runs
      have later := hypothesis next fun count member =>
        constant count (List.mem_cons_of_mem _ member)
      rw [runs, lastOf_lastOf_append, List.append_assoc, ← recorded_cons] at later
      exact later

theorem isOwned_new (project : String) (now : Instant) : (new project now).IsOwned := nofun

theorem isLimited_new (project : String) (now : Instant) :
    (new project now).IsLimited Settings.defaultRunHistory :=
  ⟨rfl, Nat.zero_le _⟩

/-- A limit that is set before the first run and stays keeps exactly the last runs. -/
theorem runs_performAll_new (project : String) (start : Instant)
    {before after : List KnowledgeAction} {count : Nat} (positive : 1 ≤ count)
    (unrecorded : recorded before = []) (constant : ∀ other, KnowledgeAction.limit other ∉ after) :
    ((new project start).performAll (before ++ .limit count :: after)).runs =
      lastOf count (recorded (before ++ .limit count :: after)) := by
  have limited := (isLimited_new project start).performAll before
  have empty : ((new project start).performAll before).runs = [] := by
    have suffix := (isLimited_new project start).runs_suffix before
    rw [unrecorded] at suffix
    exact List.suffix_nil.mp suffix
  have later := (limited.perform (.limit count)).runs_performAll constant
  have runs := (limited.runs_perform (.limit count)).2
  have all : recorded (before ++ .limit count :: after) = recorded after := by
    rw [recorded, List.filterMap_append]
    exact congrArg (· ++ recorded after) unrecorded
  have widest : max count 1 = count := Nat.max_eq_left positive
  rw [performAll, List.foldl_append]
  rw [runs, empty] at later
  rw [all]
  simpa only [limitAfter, widest, run?, Option.toList_none, List.append_nil, List.nil_append,
    lastOf, List.length_nil, List.drop_nil, List.foldl_cons, performAll] using later

/-- After any operations on new knowledge, learnings stand under their own paths with confidences
between zero and one, the runs are a final segment of the recorded ones within the limit, and the
next operation leaves everything as it is, revises one learning or adds to the decisions. -/
theorem performAll_new_preserves (project : String) (start : Instant)
    (actions : List KnowledgeAction) :
    let knowledge := (new project start).performAll actions
    (∀ path learning, knowledge.learning? path = some learning →
        learning.modulePath = path ∧ Learning.IsConfidence learning.confidence) ∧
      knowledge.runs.length ≤ max (limitOf actions) 1 ∧
      knowledge.runs <:+ recorded actions ∧
      (∀ before count after, actions = before ++ .limit count :: after → 1 ≤ count →
        recorded before = [] → (∀ other, KnowledgeAction.limit other ∉ after) →
          knowledge.runs = lastOf count (recorded actions)) ∧
      (∀ action, (knowledge.perform action).2.IsRefusal →
        (knowledge.perform action).1 = knowledge) ∧
      (∀ learning now version,
        (knowledge.perform (.relearn learning now)).2 = .relearned version →
          knowledge.Revises (knowledge.perform (.relearn learning now)).1
            learning.modulePath version) ∧
      (∀ path views root now version,
        (knowledge.perform (.refresh path views root now)).2 = .refreshed (.refreshed version) →
          knowledge.Revises (knowledge.perform (.refresh path views root now)).1 path version) ∧
      ∀ action, knowledge.decisions <+: (knowledge.perform action).1.decisions := by
  intro knowledge
  have limited := (isLimited_new project start).performAll actions
  refine ⟨(isOwned_new project start).performAll actions, limited.bounded,
    (isLimited_new project start).runs_suffix actions, ?window, ?refusal, ?relearn, ?refresh, ?_⟩
  case window =>
    rintro before count after rfl positive unrecorded constant
    exact runs_performAll_new project start positive unrecorded constant
  case refusal => exact fun action => (knowledge.performs action).of_isRefusal
  case relearn =>
    intro learning now version isVersion
    obtain ⟨_, _, same, revises⟩ | ⟨_, _, _, _, impossible, -⟩ :=
      (knowledge.performs _).revises (.inl isVersion)
    · cases same
      exact revises
    · cases impossible
  case refresh =>
    intro path views root now version isVersion
    obtain ⟨_, _, impossible, -⟩ | ⟨_, _, _, _, same, revises⟩ :=
      (knowledge.performs _).revises (.inr isVersion)
    · cases impossible
    · cases same
      exact revises
  exact fun action => (knowledge.performs action).decisions

end Knowledge

end CodeAtlas
