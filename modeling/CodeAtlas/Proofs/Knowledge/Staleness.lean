import CodeAtlas.Proofs.CodeReference
import CodeAtlas.Proofs.Knowledge.Action

/-!
# Stale sources

A reference is stale when its file is gone, or when both the time and the digest of the file are
others.  A refresh of a learning leaves what is fresh, refuses what cannot be captured, and captures
the rest anew, after which there is nothing left to refresh.
-/

namespace CodeAtlas

namespace CodeReference

variable {reference : CodeReference} {disk earlier later : Disk} {root path : String}
  {lines : Option LineRange}

theorem isStale_of_not_isFile
    (absent : disk.isFile (Path.resolve root reference.path) = false) :
    reference.isStale disk root = true := by
  rw [isStale, check, checkBetween]
  cases timed : disk.modified (Path.resolve root reference.path) with
  | error fault => rfl
  | ok modified =>
      obtain ⟨content, entry⟩ := Disk.modified_eq_ok_iff.mp timed
      have present := Disk.isFile_iff.mpr ⟨content, modified, entry⟩
      exact Bool.noConfusion (absent.symm.trans present)

theorem isStale_iff_of_entry {content : ByteArray} {modified : Instant}
    (entry : disk.entry (Path.resolve root reference.path) = .ok (.file content modified)) :
    reference.isStale disk root = true ↔
      modified ≠ reference.modified ∧ Digest.sha256 content ≠ reference.hash := by
  rw [isStale, check, checkBetween, Disk.modified_eq_ok_iff.mpr ⟨content, entry⟩,
    Disk.read_eq_ok_iff.mpr ⟨modified, entry⟩]
  by_cases timed : modified = reference.modified
  · simp [timed, Freshness.isStale]
  · by_cases same : Digest.sha256 content = reference.hash <;>
      simp [timed, same, Freshness.isStale]

/-- While the time of a file tells whether its content is the captured one, a reference is stale
exactly when there is no file or its digest is another one. -/
theorem isStale_iff_of_captured (captured : capture earlier root path lines = .ok reference)
    (timed : later.modified (Path.resolve root path) = .ok reference.modified →
      later.read (Path.resolve root path) = earlier.read (Path.resolve root path)) :
    reference.isStale later root = true ↔
      later.isFile (Path.resolve root path) = false ∨
        ∃ content, later.read (Path.resolve root path) = .ok content ∧
          Digest.sha256 content ≠ reference.hash := by
  obtain rfl := path_of_capture captured
  obtain ⟨old, before, entryBefore, isReference⟩ := capture_eq_ok_iff.mp captured
  have isHash : reference.hash = Digest.sha256 old := congrArg hash isReference
  cases present : later.isFile (Path.resolve root reference.path) with
  | false => simpa using isStale_of_not_isFile present
  | true =>
      obtain ⟨content, modified, entry⟩ := Disk.isFile_iff.mp present
      have read := Disk.read_eq_ok_iff.mpr ⟨modified, entry⟩
      rw [isStale_iff_of_entry entry]
      simp only [read, Except.ok.injEq, exists_eq_left', Bool.true_eq_false, false_or,
        and_iff_right_iff_imp]
      intro changed sameTime
      -- With the captured time the content is the captured one, and so is its digest.
      have unchanged := timed (Disk.modified_eq_ok_iff.mpr ⟨content, sameTime ▸ entry⟩)
      rw [read, Disk.read_eq_ok_iff.mpr ⟨before, entryBefore⟩] at unchanged
      cases unchanged
      exact changed isHash.symm

/-- A file that holds what it held is not stale, whatever its time. -/
theorem isStale_eq_false_of_read_eq (captured : capture earlier root path lines = .ok reference)
    (same : later.read (Path.resolve root path) = earlier.read (Path.resolve root path)) :
    reference.isStale later root = false := by
  obtain rfl := path_of_capture captured
  obtain ⟨content, before, entryBefore, isReference⟩ := capture_eq_ok_iff.mp captured
  rw [Disk.read_eq_ok_iff.mpr ⟨before, entryBefore⟩] at same
  obtain ⟨modified, entry⟩ := Disk.read_eq_ok_iff.mp same
  rw [Bool.eq_false_iff, Ne, isStale_iff_of_entry entry]
  exact fun changed => changed.2 (congrArg hash isReference).symm

end CodeReference

namespace Knowledge

variable {knowledge : Knowledge} {path root : String} {disk : Disk} {now : Instant}
  {learning : Learning} {reference captured : CodeReference} {problem : Problem}

/-- Knowledge after a refresh on a disk that does not change, and the answer. -/
def refreshOn (knowledge : Knowledge) (path : String) (disk : Disk) (root : String)
    (now : Instant) : Knowledge × KnowledgeAnswer :=
  match knowledge.refresh path disk root now with
  | .ok (changed, outcome) => (changed, .refreshed outcome)
  | .error problem => (knowledge, .failed problem)

theorem perform_refresh_still (knowledge : Knowledge) (path : String) (disk : Disk) (root : String)
    (now : Instant) : knowledge.perform (.refresh path (.still disk) root now) =
      knowledge.refreshOn path disk root now :=
  rfl

/-- A learning is there, and it has no source or one that is not stale. -/
def HasFreshSource (knowledge : Knowledge) (path : String) (disk : Disk) (root : String) : Prop :=
  ∃ learning, knowledge.learning? path = some learning ∧
    (learning.sourceRef = none ∨ learning.isStale disk root = false)

/-- There is no learning, or its source cannot be captured. -/
def LacksSource (knowledge : Knowledge) (path : String) (disk : Disk) (root : String) : Prop :=
  knowledge.learning? path = none ∨
    ∃ learning reference problem, knowledge.learning? path = some learning ∧
      learning.sourceRef = some reference ∧
      CodeReference.capture disk root reference.path reference.lines = .error problem

/-! ## One refresh -/

theorem refreshOn_of_unknown (unknown : knowledge.learning? path = none) :
    knowledge.refreshOn path disk root now = (knowledge, .failed (.notFound .learning path)) := by
  rw [refreshOn, refresh, refreshAcross, unknown]

theorem refreshOn_of_isFresh (fresh : knowledge.HasFreshSource path disk root) :
    knowledge.refreshOn path disk root now = (knowledge, .refreshed .alreadyFresh) := by
  obtain ⟨learning, isLearning, fresh⟩ := fresh
  rw [refreshOn, refresh, refreshAcross, isLearning]
  cases isReference : learning.sourceRef with
  | none => simp only [isReference]
  | some reference =>
      simp only [Learning.isStale, isReference, reduceCtorEq, false_or] at fresh
      change (reference.checkBetween disk disk root).isStale = false at fresh
      simp [isReference, DiskViews.still, fresh]

theorem refreshOn_of_stale (isLearning : knowledge.learning? path = some learning)
    (isReference : learning.sourceRef = some reference)
    (stale : reference.isStale disk root = true) :
    knowledge.refreshOn path disk root now =
      match CodeReference.capture disk root reference.path reference.lines with
      | .ok captured => ({ knowledge with learnings := (knowledge.learnings.insert path
          { learning with
            sourceRef := some captured
            version := nextVersion learning.version
            updatedAt := now }) }, .refreshed (.refreshed (nextVersion learning.version)))
      | .error problem => (knowledge, .failed problem) := by
  change (reference.checkBetween disk disk root).isStale = true at stale
  rw [refreshOn, refresh, refreshAcross, isLearning]
  simp only [isReference, DiskViews.still, stale, if_true, CodeReference.capture]
  cases CodeReference.captureBetween disk disk root reference.path reference.lines <;> rfl

theorem refreshOn_of_uncapturable (isLearning : knowledge.learning? path = some learning)
    (isReference : learning.sourceRef = some reference)
    (uncapturable :
      CodeReference.capture disk root reference.path reference.lines = .error problem) :
    knowledge.refreshOn path disk root now = (knowledge, .failed problem) := by
  have absent : disk.isFile (Path.resolve root reference.path) = false := by
    refine Bool.eq_false_iff.mpr fun present => ?_
    obtain ⟨captured, success⟩ := CodeReference.capture_succeeds_iff.mpr present
    rw [uncapturable] at success
    cases success
  rw [refreshOn_of_stale isLearning isReference (CodeReference.isStale_of_not_isFile absent),
    uncapturable]

theorem refreshOn_of_lacksSource (lacks : knowledge.LacksSource path disk root) :
    ∃ problem, knowledge.refreshOn path disk root now = (knowledge, .failed problem) := by
  obtain unknown | ⟨learning, reference, problem, isLearning, isReference, uncapturable⟩ := lacks
  · exact ⟨_, refreshOn_of_unknown unknown⟩
  · exact ⟨problem, refreshOn_of_uncapturable isLearning isReference uncapturable⟩

/-- A learning that can be refreshed has a stale source that can be captured. -/
theorem exists_captured (stale : ¬knowledge.HasFreshSource path disk root)
    (present : ¬knowledge.LacksSource path disk root) :
    ∃ learning reference captured, knowledge.learning? path = some learning ∧
      learning.sourceRef = some reference ∧ reference.isStale disk root = true ∧
      CodeReference.capture disk root reference.path reference.lines = .ok captured := by
  cases isLearning : knowledge.learning? path with
  | none => exact absurd (.inl isLearning) present
  | some learning =>
      cases isReference : learning.sourceRef with
      | none => exact absurd ⟨learning, isLearning, .inl isReference⟩ stale
      | some reference =>
          have isStale : reference.isStale disk root = true := by
            refine Bool.of_not_eq_false fun fresh => stale ⟨learning, isLearning, .inr ?_⟩
            simpa only [Learning.isStale, isReference] using fresh
          cases success : CodeReference.capture disk root reference.path reference.lines with
          | error problem =>
              exact absurd (.inr ⟨learning, reference, problem, isLearning, isReference, success⟩)
                present
          | ok captured => exact ⟨learning, reference, captured, rfl, isReference, isStale, success⟩

theorem refreshOn_of_captured (stale : ¬knowledge.HasFreshSource path disk root)
    (present : ¬knowledge.LacksSource path disk root) :
    ∃ changed version learning captured, knowledge.learning? path = some learning ∧
      knowledge.refreshOn path disk root now = (changed, .refreshed (.refreshed version)) ∧
      knowledge.Revises changed path version ∧
      changed.learning? path =
        some { learning with sourceRef := some captured, version, updatedAt := now } ∧
      captured.isStale disk root = false := by
  obtain ⟨learning, reference, captured, isLearning, isReference, isStale, success⟩ :=
    exists_captured stale present
  have answered := @refreshOn_of_stale _ _ _ disk now _ _ isLearning isReference isStale
  simp only [success] at answered
  obtain ⟨_, _, impossible, -⟩ | ⟨_, _, _, _, same, revises⟩ :=
    (knowledge.performs (.refresh path (.still disk) root now)).revises
      (.inr (congrArg Prod.snd answered))
  · cases impossible
  · cases same
    rw [perform_refresh_still, answered] at revises
    exact ⟨_, _, learning, captured, isLearning, answered, revises,
      (Keyed.get?_insert ..).trans (if_pos rfl),
      CodeReference.isStale_eq_false_of_read_eq success rfl⟩

/-- What a refresh does about the source of a learning. -/
structure IsSettled (knowledge : Knowledge) (path : String) (disk : Disk) (root : String)
    (now : Instant) : Prop where
  alreadyFresh_iff :
    knowledge.refreshOn path disk root now = (knowledge, .refreshed .alreadyFresh) ↔
      knowledge.HasFreshSource path disk root
  failed_iff :
    (∃ problem, knowledge.refreshOn path disk root now = (knowledge, .failed problem)) ↔
      knowledge.LacksSource path disk root
  /-- Everything else is captured anew, and a second refresh has nothing to do. -/
  refreshed : ¬knowledge.HasFreshSource path disk root → ¬knowledge.LacksSource path disk root →
    ∃ changed version learning captured, knowledge.learning? path = some learning ∧
      knowledge.refreshOn path disk root now = (changed, .refreshed (.refreshed version)) ∧
      knowledge.Revises changed path version ∧
      changed.learning? path =
        some { learning with sourceRef := some captured, version, updatedAt := now } ∧
      captured.isStale disk root = false ∧
      ∀ later, changed.refreshOn path disk root later = (changed, .refreshed .alreadyFresh)

theorem isSettled (knowledge : Knowledge) (path : String) (disk : Disk) (root : String)
    (now : Instant) : knowledge.IsSettled path disk root now where
  alreadyFresh_iff := by
    refine ⟨fun answered => ?_, refreshOn_of_isFresh⟩
    by_contra stale
    by_cases lacks : knowledge.LacksSource path disk root
    · obtain ⟨problem, failed⟩ := @refreshOn_of_lacksSource _ _ _ _ now lacks
      cases answered.symm.trans failed
    · obtain ⟨_, _, _, _, -, refreshed, -⟩ := @refreshOn_of_captured _ _ _ _ now stale lacks
      cases answered.symm.trans refreshed
  failed_iff := by
    refine ⟨fun answered => ?_, refreshOn_of_lacksSource⟩
    obtain ⟨problem, answered⟩ := answered
    by_contra present
    by_cases fresh : knowledge.HasFreshSource path disk root
    · cases answered.symm.trans (refreshOn_of_isFresh fresh)
    · obtain ⟨_, _, _, _, -, refreshed, -⟩ := @refreshOn_of_captured _ _ _ _ now fresh present
      cases answered.symm.trans refreshed
  refreshed := by
    intro stale present
    obtain ⟨changed, version, learning, captured, isLearning, answered, revises, isChanged,
      fresh⟩ := refreshOn_of_captured stale present
    exact ⟨changed, version, learning, captured, isLearning, answered, revises, isChanged, fresh,
      fun _ => refreshOn_of_isFresh ⟨_, isChanged, .inr fresh⟩⟩

/-! ## All learnings -/

/-- Every learning is in one of two lists, stale or not. -/
structure IsPartitioned (knowledge : Knowledge) (disk : Disk) (root : String)
    (stale fresh : List Learning) : Prop where
  perm : (stale ++ fresh).Perm knowledge.learnings.values
  stale_sublist : stale.Sublist knowledge.learnings.values
  fresh_sublist : fresh.Sublist knowledge.learnings.values
  mem_stale_iff : ∀ path learning, knowledge.learning? path = some learning →
    (learning ∈ stale ↔ knowledge.isStale path disk root = .ok true)
  mem_fresh_iff : ∀ path learning, knowledge.learning? path = some learning →
    (learning ∈ fresh ↔ knowledge.isStale path disk root = .ok false)

theorem isPartitioned (knowledge : Knowledge) (disk : Disk) (root : String) :
    knowledge.IsPartitioned disk root (knowledge.partition disk root).1
      (knowledge.partition disk root).2 := by
  have parted := List.filter_append_perm (fun learning : Learning => learning.isStale disk root)
    knowledge.learnings.values
  rw [partition, List.partition_eq_filter_filter]
  refine ⟨parted, List.filter_sublist, List.filter_sublist, ?_, ?_⟩
  all_goals
    intro path learning isLearning
    have member := Keyed.mem_values_iff.mpr ⟨path, isLearning⟩
    simp [isStale, isLearning, member]

/-- Staleness is exact, a refresh settles it, and the learnings are parted by it. -/
theorem refresh_settles_staleness (knowledge : Knowledge) (disk : Disk) (root : String) :
    (∀ earlier path lines reference,
      CodeReference.capture earlier root path lines = .ok reference →
      (disk.modified (Path.resolve root path) = .ok reference.modified →
        disk.read (Path.resolve root path) = earlier.read (Path.resolve root path)) →
      ((reference.isStale disk root = true ↔
        disk.isFile (Path.resolve root path) = false ∨
          ∃ content, disk.read (Path.resolve root path) = .ok content ∧
            Digest.sha256 content ≠ reference.hash) ∧
        (disk.read (Path.resolve root path) = earlier.read (Path.resolve root path) →
          reference.isStale disk root = false))) ∧
      (∀ path now, knowledge.IsSettled path disk root now) ∧
      knowledge.IsPartitioned disk root (knowledge.partition disk root).1
        (knowledge.partition disk root).2 :=
  ⟨fun _ _ _ _ captured timed =>
      ⟨CodeReference.isStale_iff_of_captured captured timed,
        CodeReference.isStale_eq_false_of_read_eq captured⟩,
    fun path now => knowledge.isSettled path disk root now, knowledge.isPartitioned disk root⟩

/-- A disk with one file, which was written at some time. -/
def writtenDisk (modified : Instant) : Disk :=
  ⟨.ofList [("a.py", .file "x = 1\n".toUTF8 modified)], []⟩

def unseenReference : CodeReference := ⟨"a.py", "", ⟨0, 0⟩, none⟩

def unseenLearning : Learning :=
  { Learning.blank default with
    modulePath := "a.py"
    sourceRef := some unseenReference }

/-- A learning whose source was never captured. -/
def unseenKnowledge : Knowledge := (new "demo" default).putLearning unseenLearning

theorem refresh_settles_writtenDisk :
    ∃ reference changed version,
      CodeReference.capture (writtenDisk ⟨1, 0⟩) "/" "a.py" none = .ok reference ∧
        reference.isStale (writtenDisk ⟨2, 0⟩) "/" = false ∧
        unseenKnowledge.refreshOn "a.py" (writtenDisk ⟨2, 0⟩) "/" default =
          (changed, .refreshed (.refreshed version)) ∧
        changed.refreshOn "a.py" (writtenDisk ⟨2, 0⟩) "/" default =
          (changed, .refreshed .alreadyFresh) := by
  have before : (writtenDisk ⟨1, 0⟩).read (Path.resolve "/" "a.py") = .ok "x = 1\n".toUTF8 :=
    toOption_eq_some_iff.mp (by decide +kernel)
  have after : (writtenDisk ⟨2, 0⟩).read (Path.resolve "/" "a.py") = .ok "x = 1\n".toUTF8 :=
    toOption_eq_some_iff.mp (by decide +kernel)
  have time : (writtenDisk ⟨2, 0⟩).modified (Path.resolve "/" unseenReference.path) =
      .ok ⟨2, 0⟩ := toOption_eq_some_iff.mp (by decide +kernel)
  have same := after.trans before.symm
  obtain ⟨exact, settled, -⟩ :=
    refresh_settles_staleness unseenKnowledge (writtenDisk ⟨2, 0⟩) "/"
  obtain ⟨reference, captured⟩ :=
    (@CodeReference.capture_succeeds_iff (writtenDisk ⟨1, 0⟩) "/" "a.py" none).mpr
      (Disk.isFile_iff_read.mpr ⟨_, before⟩)
  have known : unseenKnowledge.learning? "a.py" = some unseenLearning :=
    (learning?_putLearning ..).trans (if_pos rfl)
  obtain ⟨content, there⟩ := Disk.modified_eq_ok_iff.mp time
  have isStale : unseenReference.isStale (writtenDisk ⟨2, 0⟩) "/" = true :=
    (CodeReference.isStale_iff_of_entry there).mpr ⟨by decide, Digest.sha256_ne_empty _⟩
  have stale : ¬unseenKnowledge.HasFreshSource "a.py" (writtenDisk ⟨2, 0⟩) "/" := by
    rintro ⟨learning, isLearning, none | fresh⟩
    all_goals cases known.symm.trans isLearning
    · cases none
    · exact Bool.noConfusion (isStale.symm.trans fresh)
  have present : ¬unseenKnowledge.LacksSource "a.py" (writtenDisk ⟨2, 0⟩) "/" := by
    rintro (none | ⟨learning, source, problem, isLearning, isSource, failed⟩)
    · cases known.symm.trans none
    · cases known.symm.trans isLearning
      cases isSource
      obtain ⟨_, success⟩ := CodeReference.capture_succeeds_iff.mpr
        (Disk.isFile_iff_read.mpr ⟨_, after⟩)
      cases success.symm.trans failed
  obtain ⟨changed, version, _, _, -, refreshed, -, -, -, again⟩ :=
    (settled "a.py" default).refreshed stale present
  exact ⟨reference, changed, version, captured, (exact _ _ _ _ captured fun _ => same).2 same,
    refreshed, again default⟩

end Knowledge

end CodeAtlas
