import CodeAtlas.Proofs.Store.Migration

/-!
# Versions of learnings

The version of a learning is counted in 32 bits.  Loading and adopting take every version that
fits them, and each change of a learning gives it the next one.  The next version is greater than
the one before unless that was the last: zero follows it.
-/

namespace CodeAtlas

/-- What an operation adopts has a version of 32 bits. -/
def KnowledgeAction.IsCounted : KnowledgeAction → Prop
  | .adopt learning => learning.version < 2 ^ 32
  | _ => True

namespace Knowledge

variable {knowledge changed : Knowledge} {action : KnowledgeAction} {learning : Learning}
  {path : String} {version : Nat}

/-! ## Counting -/

/-- The last version that 32 bits can hold. -/
def lastVersion : Nat := 2 ^ 32 - 1

theorem lt_nextVersion_iff (fits : version < 2 ^ 32) :
    version < nextVersion version ↔ version ≠ lastVersion := by
  constructor
  · rintro increases rfl
    exact absurd increases (by decide)
  · intro notLast
    have below : version + 1 < 2 ^ 32 := by
      rw [lastVersion] at notLast
      omega
    rw [nextVersion_eq below]
    exact Nat.lt_succ_self version

/-- Every version fits 32 bits. -/
def IsCounted (knowledge : Knowledge) : Prop :=
  ∀ path learning, knowledge.learning? path = some learning → learning.version < 2 ^ 32

theorem IsCounted.insert (counted : knowledge.IsCounted) (fits : learning.version < 2 ^ 32)
    (path : String) :
    IsCounted { knowledge with learnings := knowledge.learnings.insert path learning } := by
  intro other found isFound
  rw [learning?, Keyed.get?_insert] at isFound
  split at isFound
  · cases isFound
    exact fits
  · exact counted other found isFound

/-- One operation keeps versions within 32 bits. -/
theorem IsCounted.perform (counted : knowledge.IsCounted) (given : action.IsCounted) :
    (knowledge.perform action).1.IsCounted := by
  generalize knowledge.perform action = answered, knowledge.performs action = performs
  cases performs with
  | refused => exact counted
  | added => exact counted.insert (Nat.one_lt_two_pow (by decide)) _
  | relearned => exact counted.insert (nextVersion_lt _) _
  | refreshed => exact counted.insert (nextVersion_lt _) _
  | adopted learning =>
      have fits : learning.normalize.version < 2 ^ 32 := given
      exact counted.insert fits _
  | removed path =>
      intro other found isFound
      rw [learning?, removeLearning, Keyed.get?_erase] at isFound
      split at isFound
      · cases isFound
      · exact counted other found isFound
  | decided | noted | recorded | limited => exact counted

/-! ## What a change does to a version -/

/-- A change gives a version to a learning: it is stored and fits 32 bits, it is greater than the
one before exactly if that was not the last, and after the last it is zero. -/
def Advances (before after : Knowledge) (path : String) (version : Nat) : Prop :=
  ∃ old new, before.learning? path = some old ∧ after.learning? path = some new ∧
    new.version = version ∧ version < 2 ^ 32 ∧
    (old.version < version ↔ old.version ≠ lastVersion) ∧
    (old.version = lastVersion → version = 0)

theorem advances_nextVersion {old new : Learning} (isOld : knowledge.learning? path = some old)
    (isNew : changed.learning? path = some new) (isNext : new.version = nextVersion old.version)
    (fits : old.version < 2 ^ 32) : knowledge.Advances changed path (nextVersion old.version) := by
  refine ⟨old, new, isOld, isNew, isNext, nextVersion_lt _, lt_nextVersion_iff fits, ?_⟩
  intro isLast
  rw [isLast]
  rfl

theorem IsCounted.relearn (counted : knowledge.IsCounted) {now : Instant}
    (success : knowledge.relearn learning now = .ok (changed, version)) :
    knowledge.Advances changed learning.modulePath version := by
  obtain ⟨previous, isPrevious, rfl, rfl⟩ := relearn_eq_ok_iff.mp success
  exact advances_nextVersion isPrevious ((learning?_putLearning ..).trans (if_pos rfl)) rfl
    (counted _ _ isPrevious)

theorem IsCounted.refresh (counted : knowledge.IsCounted) {views : DiskViews} {root : String}
    {now : Instant}
    (success : knowledge.refreshAcross path views root now = .ok (changed, .refreshed version)) :
    knowledge.Advances changed path version := by
  obtain ⟨-, impossible⟩ | ⟨learning, reference, captured, isLearning, -, -, rfl, same⟩ :=
    refreshAcross_cases success
  · cases impossible
  · cases same
    exact advances_nextVersion isLearning ((Keyed.get?_insert ..).trans (if_pos rfl)) rfl
      (counted _ _ isLearning)

/-! ## Knowledge that is read -/

theorem isCounted_of_empty (empty : knowledge.learnings = .empty) : knowledge.IsCounted := by
  intro path learning isLearning
  rw [learning?, empty] at isLearning
  cases isLearning

theorem isCounted_of_ofJson? {now : Instant} {value : Json}
    (found : ofJson? now value = some knowledge) : knowledge.IsCounted := by
  obtain ⟨record, -, found⟩ := Option.bind_eq_some_iff.mp found
  obtain ⟨project, -, found⟩ := Option.bind_eq_some_iff.mp found
  obtain ⟨number, -, found⟩ := Option.bind_eq_some_iff.mp found
  obtain ⟨saved, -, found⟩ := Option.bind_eq_some_iff.mp found
  obtain ⟨learnings, areLearnings, found⟩ := Option.bind_eq_some_iff.mp found
  obtain ⟨decisions, -, found⟩ := Option.bind_eq_some_iff.mp found
  obtain ⟨patterns, -, found⟩ := Option.bind_eq_some_iff.mp found
  obtain ⟨runs, -, found⟩ := Option.bind_eq_some_iff.mp found
  cases found
  obtain rfl | ⟨value, -, isMap⟩ := Json.Record.defaulted_cases areLearnings
  · exact isCounted_of_empty rfl
  · intro path learning isLearning
    obtain ⟨_, -, member, -, isDecoded⟩ :=
      Json.exists_member_of_asKeyed? isMap learning (Keyed.mem_values_iff.mpr ⟨path, isLearning⟩)
    exact Learning.version_lt_of_ofJson? isDecoded

end Knowledge

namespace Store

open Knowledge

variable {store : Store} {disk : Disk} {project : String} {now : Instant} {knowledge : Knowledge}
  {learning : Learning}

theorem isCounted_of_loadKnowledge
    (loaded : store.loadKnowledge disk project now = .ok knowledge) : knowledge.IsCounted := by
  obtain ⟨text, value, read, -, -, decoded, rfl⟩ | ⟨-, rfl⟩ := read_or_fresh_of_loadKnowledge loaded
  · have counted := isCounted_of_ofJson? decoded
    exact counted
  · exact isCounted_of_empty rfl

/-- A learning that a graph document embeds. -/
def IsLegacy (learning : Learning) : Prop :=
  ∃ now legacy learnings, legacyLearnings now legacy = .ok learnings ∧ learning ∈ learnings

theorem IsLegacy.version_lt (legacy : IsLegacy learning) : learning.version < 2 ^ 32 := by
  obtain ⟨now, value, learnings, areLearnings, member⟩ := legacy
  obtain ⟨entry, -, decoded, isDecoded, named⟩ :=
    exists_mem_of_forall₂ (forall₂_of_legacyLearnings areLearnings) member
  have counted := Learning.version_lt_of_ofJson? isDecoded
  obtain ⟨-, rfl⟩ | ⟨key, -, -, rfl⟩ := named <;> exact counted

/-- Knowledge that a program can have: it was loaded, and then changed by operations of which those
that adopt learnings adopt embedded ones. -/
inductive IsReached (store : Store) : Knowledge → Prop
  | loaded {disk : Disk} {project : String} {now : Instant} {knowledge : Knowledge}
      (success : store.loadKnowledge disk project now = .ok knowledge) : store.IsReached knowledge
  | performed {knowledge : Knowledge} (reached : store.IsReached knowledge)
      (action : KnowledgeAction)
      (adopts : ∀ learning, action = .adopt learning → IsLegacy learning) :
      store.IsReached (knowledge.perform action).1

theorem IsReached.isCounted (reached : store.IsReached knowledge) : knowledge.IsCounted := by
  induction reached with
  | loaded success => exact isCounted_of_loadKnowledge success
  | performed reached action adopts counted =>
      apply counted.perform
      cases action with
      | adopt learning => exact (adopts learning rfl).version_lt
      | _ => exact trivial

/-- Whatever was loaded and done before, a learning that is replaced or refreshed gets a version
that is returned and stored and fits 32 bits; it is greater than the one before exactly if that was
not the last one, after which comes zero. -/
theorem version_increases_iff (reached : store.IsReached knowledge) :
    (∀ learning now changed version,
      knowledge.relearn learning now = .ok (changed, version) →
        knowledge.Advances changed learning.modulePath version) ∧
      ∀ path views root now changed version,
        knowledge.refreshAcross path views root now = .ok (changed, .refreshed version) →
          knowledge.Advances changed path version := by
  refine ⟨?_, ?_⟩
  · intro learning now changed version success
    exact reached.isCounted.relearn success
  · intro path views root now changed version success
    exact reached.isCounted.refresh success

/-- A document of knowledge that notes one learning with a version. -/
def versionText (version : String) : String :=
  "\x7b\"project\": \"demo\", \"version\": 1, \"saved_at\": \"2024-01-01T00:00:00Z\", " ++
    "\"learnings\": \x7b\"a.py\": \x7b\"version\": " ++ version ++ "\x7d\x7d\x7d"

/-- A disk with that document. -/
def versionDisk (version : String) : Disk :=
  ⟨.ofList [("demo", .directory), ("demo/.scion", .directory),
    ("demo/.scion/knowledge.json", .file (versionText version).toUTF8 default)], []⟩

/-- What replaces the learning of that document. -/
def versionLearning : Learning := { Learning.blank default with modulePath := "a.py" }

/-- The learning of that document has the given version and is replaced. -/
theorem exists_relearn (text : String) (before after : Nat)
    (evaluated : (demoStore.loadKnowledge (versionDisk text) "demo" default).toOption.map
      (fun knowledge => ((knowledge.learning? "a.py").map (·.version),
        (knowledge.relearn versionLearning default).toOption.map (·.2))) =
      some (some before, some after)) :
    ∃ knowledge changed, demoStore.loadKnowledge (versionDisk text) "demo" default = .ok knowledge ∧
      (knowledge.learning? "a.py").map (·.version) = some before ∧
      knowledge.relearn versionLearning default = .ok (changed, after) := by
  obtain ⟨knowledge, loaded, answers⟩ := map_toOption_eq_some_iff.mp evaluated
  obtain ⟨isVersion, isChanged⟩ := Prod.mk.inj answers
  obtain ⟨⟨changed, _⟩, replaces, rfl⟩ := map_toOption_eq_some_iff.mp isChanged
  exact ⟨knowledge, changed, loaded, isVersion, replaces⟩

/-- After version seven comes version eight. -/
theorem version_increases_seven : ∃ knowledge changed, demoStore.IsReached knowledge ∧
    (knowledge.learning? "a.py").map (·.version) = some 7 ∧
    knowledge.relearn versionLearning default = .ok (changed, 8) ∧
    knowledge.Advances changed "a.py" 8 := by
  obtain ⟨knowledge, changed, loaded, isVersion, replaces⟩ :=
    exists_relearn "7" 7 8 (by decide +kernel)
  have reached := IsReached.loaded loaded
  obtain ⟨relearn, -⟩ := version_increases_iff reached
  exact ⟨knowledge, changed, reached, isVersion, replaces, relearn _ _ _ _ replaces⟩

/-- The last version is loaded, and after it comes version zero. -/
theorem last_version_wraps : ∃ knowledge changed,
    demoStore.loadKnowledge (versionDisk "4294967295") "demo" default = .ok knowledge ∧
      (knowledge.learning? "a.py").map (·.version) = some lastVersion ∧
      knowledge.relearn versionLearning default = .ok (changed, 0) :=
  exists_relearn _ _ _ (by decide +kernel)

end Store

end CodeAtlas
