import CodeAtlas.Proofs.CodeReference
import CodeAtlas.Proofs.Knowledge.Action
import CodeAtlas.Proofs.Knowledge.Document

/-!
# What operations store

Whatever operations on knowledge store can be held by a document, if what they are given can be.
-/

namespace CodeAtlas

/-- Files were changed at times of the calendar. -/
def Disk.IsTimed (disk : Disk) : Prop :=
  ∀ path modified, disk.modified path = .ok modified → modified.IsValid

/-- What is given to an operation can be held by a document. -/
def KnowledgeAction.IsRepresentable : KnowledgeAction → Prop
  | .add learning now | .relearn learning now => learning.IsRepresentable ∧ now.IsValid
  | .refresh _ views _ now => views.capturedTime.IsTimed ∧ now.IsValid
  | .adopt learning => learning.IsRepresentable
  | .decide _ _ now => now.IsValid
  | .record run => run.at_.IsValid
  | .remove _ | .note _ _ | .limit _ => True

theorem Learning.IsRepresentable.normalize {learning : Learning}
    (representable : learning.IsRepresentable) : learning.normalize.IsRepresentable :=
  ⟨isProper_normalConfidence representable.confidence, representable.version,
    representable.sourceRef, representable.learnedAt, representable.updatedAt⟩

namespace Knowledge

variable {knowledge : Knowledge} {action : KnowledgeAction} {learning : Learning} {path : String}

theorem nextVersion_lt (version : Nat) : nextVersion version < 2 ^ 32 :=
  Nat.mod_lt _ (Nat.two_pow_pos 32)

theorem IsRepresentable.of_learning? (representable : knowledge.IsRepresentable)
    (isLearning : knowledge.learning? path = some learning) : learning.IsRepresentable :=
  representable.learnings learning (Keyed.mem_values_iff.mpr ⟨path, isLearning⟩)

theorem isRepresentable_new (project : String) {now : Instant} (valid : now.IsValid) :
    (new project now).IsRepresentable where
  version := Nat.one_lt_two_pow (by decide)
  savedAt := valid
  learnings := fun _ member => absurd member List.not_mem_nil
  decisions := fun _ member => absurd member List.not_mem_nil
  runs := fun _ member => absurd member List.not_mem_nil

theorem IsRepresentable.with_learnings (representable : knowledge.IsRepresentable)
    {learnings : Keyed Learning}
    (all : ∀ path learning, learnings.get? path = some learning → learning.IsRepresentable) :
    IsRepresentable { knowledge with learnings } where
  version := representable.version
  savedAt := representable.savedAt
  learnings := by
    intro learning member
    obtain ⟨path, isLearning⟩ := Keyed.mem_values_iff.mp member
    exact all path learning isLearning
  decisions := representable.decisions
  runs := representable.runs

theorem IsRepresentable.insert (representable : knowledge.IsRepresentable)
    (new : learning.IsRepresentable) (path : String) :
    IsRepresentable { knowledge with learnings := knowledge.learnings.insert path learning } := by
  refine representable.with_learnings fun other found isFound => ?_
  rw [Keyed.get?_insert] at isFound
  split at isFound
  · cases isFound
    exact new
  · exact representable.of_learning? isFound

theorem IsRepresentable.setRunLimit (representable : knowledge.IsRepresentable) (limit : Nat) :
    (knowledge.setRunLimit limit).IsRepresentable :=
  ⟨representable.version, representable.savedAt, representable.learnings, representable.decisions,
    fun run member => representable.runs run (mem_of_mem_lastOf member)⟩

theorem IsRepresentable.perform (representable : knowledge.IsRepresentable)
    (given : action.IsRepresentable) : (knowledge.perform action).1.IsRepresentable := by
  generalize knowledge.perform action = answered, knowledge.performs action = performs
  cases performs with
  | refused => exact representable
  | added learning now =>
      have normal := given.1.normalize
      have new : Learning.IsRepresentable
          { learning.normalize with version := 1, learnedAt := now, updatedAt := now } :=
        ⟨normal.confidence, Nat.one_lt_two_pow (by decide), normal.sourceRef, given.2, given.2⟩
      exact representable.insert new _
  | relearned learning previous now isPrevious =>
      have normal := given.1.normalize
      have new : Learning.IsRepresentable { learning.normalize with
          version := nextVersion previous.version
          learnedAt := previous.learnedAt
          updatedAt := now } :=
        ⟨normal.confidence, nextVersion_lt _, normal.sourceRef,
          (representable.of_learning? isPrevious).learnedAt, given.2⟩
      exact representable.insert new _
  | refreshed path views root now learning reference captured isLearning isReference isCaptured =>
      have old := representable.of_learning? isLearning
      obtain ⟨modified, content, isModified, -, rfl⟩ :=
        CodeReference.captureBetween_eq_ok_iff.mp isCaptured
      have source : CodeReference.IsRepresentable
          ⟨reference.path, Digest.sha256 content, modified, reference.lines⟩ :=
        ⟨given.1 _ modified isModified, (old.sourceRef reference isReference).lines⟩
      have new : Learning.IsRepresentable { learning with
          sourceRef := some ⟨reference.path, Digest.sha256 content, modified, reference.lines⟩
          version := nextVersion learning.version
          updatedAt := now } :=
        ⟨old.confidence, nextVersion_lt _, fun _ isNew => Option.some.inj isNew ▸ source,
          old.learnedAt, given.2⟩
      exact representable.insert new _
  | adopted learning => exact representable.insert given.normalize _
  | removed path =>
      refine representable.with_learnings fun other found isFound => ?_
      rw [Keyed.get?_erase] at isFound
      split at isFound
      · cases isFound
      · exact representable.of_learning? isFound
  | decided rationale modules now =>
      refine ⟨representable.version, representable.savedAt, representable.learnings, ?_,
        representable.runs⟩
      intro decision member
      obtain old | new := List.mem_append.mp member
      · exact representable.decisions decision old
      · cases List.mem_singleton.mp new
        exact given
  | noted => exact ⟨representable.version, representable.savedAt, representable.learnings,
      representable.decisions, representable.runs⟩
  | recorded run =>
      refine ⟨representable.version, representable.savedAt, representable.learnings,
        representable.decisions, fun other member => ?_⟩
      obtain old | new := List.mem_append.mp (mem_of_mem_lastOf member)
      · exact representable.runs other old
      · cases List.mem_singleton.mp new
        exact given
  | limited count => exact representable.setRunLimit count

theorem IsRepresentable.performAll {actions : List KnowledgeAction}
    (representable : knowledge.IsRepresentable)
    (given : ∀ action ∈ actions, action.IsRepresentable) :
    (knowledge.performAll actions).IsRepresentable := by
  induction actions generalizing knowledge with
  | nil => exact representable
  | cons action rest hypothesis =>
      exact hypothesis (representable.perform (given action List.mem_cons_self))
        fun other member => given other (List.mem_cons_of_mem _ member)

theorem IsOwned.isFinite (owned : knowledge.IsOwned) : knowledge.IsFinite := by
  intro learning member
  obtain ⟨path, isLearning⟩ := Keyed.mem_values_iff.mp member
  exact (owned path learning isLearning).2.isFinite

end Knowledge

end CodeAtlas
