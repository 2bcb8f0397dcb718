import CodeAtlas.Proofs.Store.RoundTrip

/-!
# Features and plans that are saved one after the other

After any number of saves a document holds what was saved to it last, and every other document is
as it was.  A feature is so found under the slug of its name, and a plan under the two slugs of
its names with dashes between them: names that come to the same share a document.
-/

namespace CodeAtlas

open Json

namespace Store

variable {α : Type} {store : Store} {disk : Disk} {base : List String}
  {save : α → Instant → DiskAction String} {documentOf : α → Document} {encode : α → Json}

/-- Saves one after the other: the values that were saved, and the disk at the end. -/
def saveAll (save : α → Instant → DiskAction String) :
    List (α × Instant) → Disk → List α × Disk
  | [], disk => ([], disk)
  | (value, now) :: rest, disk =>
      let (result, between) := (save value now).runOn disk
      let (saved, after) := saveAll save rest between
      match result with
      | .ok _ => (value :: saved, after)
      | .error _ => (saved, after)

theorem exists_saveAll_eq (save : α → Instant → DiskAction String) (saves : List (α × Instant))
    (disk : Disk) : ∃ saved after, saveAll save saves disk = (saved, after) :=
  ⟨_, _, rfl⟩

/-- The value that was saved last to a document. -/
def lastSaved (documentOf : α → Document) (document : Document) (saved : List α) : Option α :=
  (saved.filter fun value => documentOf value = document).getLast?

/-- A save writes a value to the document that is its own. -/
def SavesTo (store : Store) (save : α → Instant → DiskAction String) (documentOf : α → Document)
    (encode : α → Json) : Prop :=
  ∀ value now disk, (save value now).runOn disk =
    (((writeDocument ((documentOf value).path store) (encode value) now).runOn disk).1.map
      fun _ => (documentOf value).path store,
    ((writeDocument ((documentOf value).path store) (encode value) now).runOn disk).2)

theorem saveFeature_savesTo (store : Store) :
    store.SavesTo store.saveFeature (fun feature => .feature feature.name) Feature.toJson :=
  runOn_saveFeature store

theorem savePlan_savesTo (store : Store) :
    store.SavesTo store.savePlan (fun plan => .plan plan.featureName plan.targetProject)
      TransplantPlan.toJson :=
  runOn_savePlan store

/-- What is saved is among what was to be saved. -/
theorem mem_of_mem_saveAll {saves : List (α × Instant)} :
    ∀ {disk : Disk} {value : α}, value ∈ (saveAll save saves disk).1 →
      ∃ now, (value, now) ∈ saves := by
  induction saves with
  | nil => nofun
  | cons head rest hypothesis =>
      obtain ⟨first, now⟩ := head
      intro disk value member
      have inRest {between : Disk} (isSaved : value ∈ (saveAll save rest between).1) :
          ∃ moment, (value, moment) ∈ (first, now) :: rest := by
        obtain ⟨later, isLater⟩ := hypothesis isSaved
        exact ⟨later, List.mem_cons_of_mem _ isLater⟩
      rcases runs : (save first now).runOn disk with ⟨_ | _, between⟩
      · rw [saveAll, runs] at member
        exact inRest member
      · rw [saveAll, runs] at member
        rcases List.mem_cons.mp member with rfl | isSaved
        · exact ⟨now, List.mem_cons_self⟩
        · exact inRest isSaved

theorem lastSaved_cons_of_ne {document : Document} {value : α}
    (different : document ≠ documentOf value) (saved : List α) :
    lastSaved documentOf document (value :: saved) = lastSaved documentOf document saved := by
  rw [lastSaved, List.filter_cons_of_neg (by simpa using different.symm)]
  rfl

theorem lastSaved_cons_self (value : α) (saved : List α) :
    lastSaved documentOf (documentOf value) (value :: saved) =
      some ((lastSaved documentOf (documentOf value) saved).getD value) := by
  rw [lastSaved, List.filter_cons_of_pos (by simp), List.getLast?_cons]
  rfl

namespace SavesTo

variable (savesTo : store.SavesTo save documentOf encode)

include savesTo

theorem exists_writes (home : store.IsHome disk base) (value : α) (now : Instant) :
    ∃ written between,
      (save value now).runOn disk =
        (written.map fun _ => (documentOf value).path store, between) ∧
      Writes (documentOf value) base (encode value) disk written between := by
  obtain ⟨written, between, runs, writes⟩ :=
    home.exists_writes (documentOf value) (encode value) now
  refine ⟨written, between, ?_, writes⟩
  rw [savesTo, runs]

/-- After any number of saves every document holds what was saved to it last. -/
theorem text_saveAll (saves : List (α × Instant)) :
    ∀ {disk : Disk}, store.IsHome disk base →
      store.IsHome (saveAll save saves disk).2 base ∧
        ∀ document : Document, document.text (saveAll save saves disk).2 base =
          (lastSaved documentOf document (saveAll save saves disk).1).elim
            (document.text disk base) fun value => .ok (encode value).pretty := by
  induction saves with
  | nil => exact fun home => ⟨home, fun _ => rfl⟩
  | cons head rest hypothesis =>
      obtain ⟨value, now⟩ := head
      intro disk home
      obtain ⟨written, between, runs, writes⟩ := savesTo.exists_writes home value now
      obtain ⟨homeAfter, texts⟩ := hypothesis (home.keeps writes.touches.keeps writes.touches.tree)
      have others (document : Document) (different : document ≠ documentOf value) :
          document.text between base = document.text disk base :=
        writes.touches.text_of_ne home.tree home.named document different
      rw [saveAll, runs]
      obtain ⟨rfl, -, holds⟩ | ⟨⟨_, rfl⟩, -, same⟩ := writes.outcome
      · refine ⟨homeAfter, fun document => ?_⟩
        refine (texts document).trans ?_
        by_cases own : document = documentOf value
        · subst own
          rw [holds, Except.map, lastSaved_cons_self]
          cases lastSaved documentOf (documentOf value) (saveAll save rest between).1 <;> rfl
        · rw [others document own, Except.map, lastSaved_cons_of_ne own]
      · refine ⟨homeAfter, fun document => ?_⟩
        refine (texts document).trans ?_
        by_cases own : document = documentOf value
        · rw [own, same]
          rfl
        · rw [others document own]
          rfl

/-- Everything is saved where all documents can be written. -/
theorem saveAll_eq_of_writable (saves : List (α × Instant)) :
    ∀ {disk : Disk}, store.IsHome disk base →
      (∀ each ∈ saves, CanWrite disk ((documentOf each.1).path store)) →
      (saveAll save saves disk).1 = saves.map Prod.fst := by
  induction saves with
  | nil => exact fun _ _ => rfl
  | cons head rest hypothesis =>
      obtain ⟨value, now⟩ := head
      intro disk home canWrite
      obtain ⟨written, between, runs, writes⟩ := savesTo.exists_writes home value now
      have homeBetween := home.keeps writes.touches.keeps writes.touches.tree
      have canWriteRest : ∀ each ∈ rest, CanWrite between ((documentOf each.1).path store) := by
        intro each member
        have writable := (home.canWrite_iff _).mp (canWrite each (List.mem_cons_of_mem _ member))
        exact (homeBetween.canWrite_iff _).mpr (writes.touches.isWritable home.named writable)
      obtain ⟨rfl, -, -⟩ | ⟨-, blocked, -⟩ := writes.outcome
      · rw [saveAll, runs, List.map_cons, ← hypothesis homeBetween canWriteRest]
        rfl
      · exact absurd ((home.canWrite_iff _).mp (canWrite _ List.mem_cons_self)) blocked

/-- After any number of saves a document is loaded as it was saved last, and else as before. -/
theorem decodedFrom_saveAll {kind : DocumentKind} {decode : Json → Option α} {admits : α → Prop}
    (back : ReadsBack Json.ofText? encode decode admits) (home : store.IsHome disk base)
    {saves : List (α × Instant)} (admitted : ∀ each ∈ saves, admits each.1) (document : Document)
    (fallback : Problem) :
    decodedFrom kind decode fallback ((saveAll save saves disk).2.readText (document.path store)) =
      (lastSaved documentOf document (saveAll save saves disk).1).elim
        (decodedFrom kind decode fallback (disk.readText (document.path store))) .ok := by
  obtain ⟨homeAfter, texts⟩ := savesTo.text_saveAll saves home
  rw [homeAfter.readText_eq, home.readText_eq, texts document]
  cases last : lastSaved documentOf document (saveAll save saves disk).1 with
  | none => rfl
  | some value =>
      have isSaved := (List.mem_filter.mp (List.mem_of_getLast? last)).1
      obtain ⟨now, member⟩ := mem_of_mem_saveAll isSaved
      exact decodedFrom_pretty back (admitted _ member) fallback

end SavesTo

theorem lastSaved_congr {documentOf : α → Document} {document : Document} {own : α → Prop}
    [DecidablePred own] {saved : List α}
    (same : ∀ value ∈ saved, documentOf value = document ↔ own value) :
    lastSaved documentOf document saved = (saved.filter fun value => own value).getLast? := by
  have agree : ∀ value ∈ saved, decide (documentOf value = document) = decide (own value) :=
    fun value member => decide_eq_decide.mpr (same value member)
  rw [lastSaved, List.filter_congr agree]

/-! ## Features -/

/-- A feature is loaded as the last that was saved under the slug of its name. -/
theorem loadFeature_saveAll_eq (home : store.IsHome disk base) {saves : List (Feature × Instant)}
    (representable : ∀ each ∈ saves, each.1.IsRepresentable) (name : String) :
    store.loadFeature (saveAll store.saveFeature saves disk).2 name =
      ((saveAll store.saveFeature saves disk).1.filter fun feature =>
        slug feature.name = slug name).getLast?.elim (store.loadFeature disk name) .ok := by
  have bySlug : ∀ feature ∈ (saveAll store.saveFeature saves disk).1,
      Document.feature feature.name = .feature name ↔ slug feature.name = slug name :=
    fun _ _ => Document.feature_eq_iff
  rw [loadFeature_eq, loadFeature_eq, ← lastSaved_congr bySlug]
  exact store.saveFeature_savesTo.decodedFrom_saveAll Feature.readsBack home representable
    (.feature name) (.notFound .feature name)

/-- Features are kept as a map whose keys are the slugs of their names: a feature is loaded as the
last that was saved under the slug of its name, and as before if there is none.  Plain names are
their own slugs. -/
theorem loadFeature_saveAll (home : store.IsHome disk base) {saves : List (Feature × Instant)}
    (representable : ∀ each ∈ saves, each.1.IsRepresentable) {saved : List Feature} {after : Disk}
    (runs : saveAll store.saveFeature saves disk = (saved, after)) :
    ((∀ each ∈ saves, CanWrite disk (store.featurePath each.1.name)) →
        saved = saves.map Prod.fst) ∧
      (∀ name, store.loadFeature after name =
        (saved.filter fun feature => slug feature.name = slug name).getLast?.elim
          (store.loadFeature disk name) .ok) ∧
      (∀ name, disk.readText (store.featurePath name) = .error .missing →
        (∀ feature ∈ saved, slug feature.name ≠ slug name) →
        store.loadFeature after name = .error (.notFound .feature name)) ∧
      ∀ name, IsPlainName name → (∀ each ∈ saves, IsPlainName each.1.name) →
        store.loadFeature after name =
          (saved.filter fun feature => feature.name = name).getLast?.elim
            (store.loadFeature disk name) .ok := by
  obtain ⟨rfl, rfl⟩ := Prod.ext_iff.mp runs
  have loads := loadFeature_saveAll_eq home representable
  refine ⟨fun canWrite => store.saveFeature_savesTo.saveAll_eq_of_writable saves home canWrite,
    loads, fun name missing none => ?_, fun name plain allPlain => ?_⟩
  · have nothing : ((saveAll store.saveFeature saves disk).1.filter fun feature =>
        slug feature.name = slug name) = [] := by
      rw [List.filter_eq_nil_iff]
      simpa using none
    rw [loads, nothing, loadFeature_eq, Document.path_feature, missing]
    rfl
  · have byName : ∀ feature ∈ (saveAll store.saveFeature saves disk).1,
        decide (slug feature.name = slug name) = decide (feature.name = name) := by
      intro feature member
      obtain ⟨now, isSave⟩ := mem_of_mem_saveAll member
      rw [slug_eq_self (allPlain _ isSave), slug_eq_self plain]
    rw [loads, List.filter_congr byName]

/-- A feature under any name. -/
def featureNamed (name : String) : Feature := { demoFeature with name := name }

theorem isRepresentable_featureNamed (name : String) : (featureNamed name).IsRepresentable :=
  ⟨isRepresentable_demoFeature.1, isRepresentable_demoFeature.2⟩

/-- A feature is found after another was saved, and one that was not saved is not. -/
theorem loadFeature_saveAll_shelved : ∃ after,
    saveAll demoStore.saveFeature [(featureNamed "sea", default), (featureNamed "land", default)]
        shelvedDisk = ([featureNamed "sea", featureNamed "land"], after) ∧
      demoStore.loadFeature after "sea" = .ok (featureNamed "sea") ∧
      demoStore.loadFeature after "air" = .error (.notFound .feature "air") := by
  obtain ⟨saved, after, runs⟩ := exists_saveAll_eq demoStore.saveFeature
    [(featureNamed "sea", default), (featureNamed "land", default)] shelvedDisk
  obtain ⟨all, -, notFound, loads⟩ := loadFeature_saveAll isHome_shelvedDisk
    (by simp [isRepresentable_featureNamed]) runs
  obtain rfl := all fun each _ => canWrite_shelvedDisk (.feature each.1.name)
  refine ⟨after, runs, ?_, notFound "air" (by decide +kernel) ?_⟩
  · rw [loads "sea" (by decide) (by decide)]
    simp [featureNamed]
  have own : slug "sea" = "sea" ∧ slug "land" = "land" ∧ slug "air" = "air" :=
    ⟨slug_eq_self (by decide), slug_eq_self (by decide), slug_eq_self (by decide)⟩
  simp [featureNamed, own]

/-- A feature is loaded as another that was saved later under a name of the same slug. -/
theorem loadFeature_alike : ∃ after,
    saveAll demoStore.saveFeature [(featureNamed "a b", default), (featureNamed "a-b", default)]
        shelvedDisk = ([featureNamed "a b", featureNamed "a-b"], after) ∧
      ([featureNamed "a b", featureNamed "a-b"].filter fun feature =>
        feature.name = "a b").getLast? = some (featureNamed "a b") ∧
      demoStore.loadFeature after "a b" = .ok (featureNamed "a-b") := by
  have sameSlug : slug "a b" = slug "a-b" := by
    refine String.toList_injective ?_
    rw [toList_slug (by decide), toList_slug (by decide)]
    simp [slugCharacter]
  have all := demoStore.saveFeature_savesTo.saveAll_eq_of_writable
    [(featureNamed "a b", default), (featureNamed "a-b", default)] isHome_shelvedDisk
    fun each _ => canWrite_shelvedDisk (.feature each.1.name)
  have representable : ∀ each ∈ [(featureNamed "a b", (default : Instant)),
      (featureNamed "a-b", default)], each.1.IsRepresentable := by
    simp [isRepresentable_featureNamed]
  have loads := loadFeature_saveAll_eq isHome_shelvedDisk representable "a b"
  obtain ⟨saved, after, runs⟩ := exists_saveAll_eq demoStore.saveFeature
    [(featureNamed "a b", default), (featureNamed "a-b", default)] shelvedDisk
  rw [runs] at all loads
  obtain rfl := all
  refine ⟨after, runs, by simp [featureNamed], ?_⟩
  rw [loads]
  simp [featureNamed, sameSlug]

/-! ## Plans -/

/-- A plan is loaded as the last that was saved under the two slugs of its names. -/
theorem loadPlan_saveAll_eq (home : store.IsHome disk base)
    (saves : List (TransplantPlan × Instant)) (feature target : String) :
    store.loadPlan (saveAll store.savePlan saves disk).2 feature target =
      ((saveAll store.savePlan saves disk).1.filter fun plan =>
        Document.planName plan.featureName plan.targetProject =
          Document.planName feature target).getLast?.elim
            (store.loadPlan disk feature target) .ok := by
  have byName : ∀ plan ∈ (saveAll store.savePlan saves disk).1,
      Document.plan plan.featureName plan.targetProject = .plan feature target ↔
        Document.planName plan.featureName plan.targetProject =
          Document.planName feature target :=
    fun _ _ => Document.plan_eq_iff
  rw [loadPlan_eq, loadPlan_eq, ← lastSaved_congr byName]
  exact store.savePlan_savesTo.decodedFrom_saveAll TransplantPlan.readsBack home
    (fun _ _ => trivial) (.plan feature target) (.notFound .plan (feature ++ " -> " ++ target))

/-- Plans are kept as a map whose keys are two slugs joined by dashes, and for plain names that is
the names themselves.  Where no feature, or no target, reaches into these dashes, the keys of plain
names are the pairs of names. -/
theorem loadPlan_saveAll (home : store.IsHome disk base)
    {saves : List (TransplantPlan × Instant)} {saved : List TransplantPlan} {after : Disk}
    (runs : saveAll store.savePlan saves disk = (saved, after))
    (feature target : String) (isFeature : IsPlainName feature) (isTarget : IsPlainName target) :
    ((∀ each ∈ saves, CanWrite disk
        (store.planPath each.1.featureName each.1.targetProject)) → saved = saves.map Prod.fst) ∧
      (∀ first second, IsPlainName first → IsPlainName second →
        (store.planPath first second = store.planPath feature target ↔
          first ++ "--" ++ second = feature ++ "--" ++ target) ∧
        (EndsBeforeDashes first ∧ EndsBeforeDashes feature ∨
            StartsAfterDashes second ∧ StartsAfterDashes target →
          (store.planPath first second = store.planPath feature target ↔
            first = feature ∧ second = target))) ∧
      (store.loadPlan after feature target =
        (saved.filter fun plan => slug plan.featureName ++ "--" ++ slug plan.targetProject =
          feature ++ "--" ++ target).getLast?.elim (store.loadPlan disk feature target) .ok) ∧
      ((∀ each ∈ saves, IsPlainName each.1.featureName ∧ IsPlainName each.1.targetProject) →
        (∀ each ∈ saves, EndsBeforeDashes each.1.featureName) ∧ EndsBeforeDashes feature ∨
          (∀ each ∈ saves, StartsAfterDashes each.1.targetProject) ∧ StartsAfterDashes target →
        store.loadPlan after feature target =
          (saved.filter fun plan =>
            plan.featureName = feature ∧ plan.targetProject = target).getLast?.elim
              (store.loadPlan disk feature target) .ok) := by
  obtain ⟨rfl, rfl⟩ := Prod.ext_iff.mp runs
  have loads := loadPlan_saveAll_eq home saves feature target
  have own := Document.planName_eq_joined isFeature isTarget
  have samePath {first second : String} (isFirst : IsPlainName first)
      (isSecond : IsPlainName second) :
      store.planPath first second = store.planPath feature target ↔
        joined first second = joined feature target := by
    rw [Document.planPath_eq_iff, Document.plan_eq_iff,
      Document.planName_eq_joined isFirst isSecond, own]
  refine ⟨fun canWrite => store.savePlan_savesTo.saveAll_eq_of_writable saves home canWrite,
    fun first second isFirst isSecond => ⟨samePath isFirst isSecond, fun told => ?_⟩, ?_,
    fun allPlain told => ?_⟩
  · rw [samePath isFirst isSecond, joined_eq_iff told]
  · rw [loads, own]
    rfl
  · have byPair : ∀ plan ∈ (saveAll store.savePlan saves disk).1,
        decide (Document.planName plan.featureName plan.targetProject =
          Document.planName feature target) =
        decide (plan.featureName = feature ∧ plan.targetProject = target) := by
      intro plan member
      obtain ⟨now, isSave⟩ := mem_of_mem_saveAll member
      obtain ⟨isFirst, isSecond⟩ := allPlain _ isSave
      rw [Document.planName_eq_joined isFirst isSecond, own, decide_eq_decide]
      exact joined_eq_iff (told.imp (fun ⟨all, own⟩ => ⟨all _ isSave, own⟩)
        fun ⟨all, own⟩ => ⟨all _ isSave, own⟩)
    rw [loads, List.filter_congr byPair]

/-- A plan of any feature for any target. -/
def planBetween (feature target : String) : TransplantPlan :=
  { demoPlan with featureName := feature, targetProject := target }

/-- A plan for a target that dashes are part of is told from another of the same feature. -/
theorem loadPlan_saveAll_shelved : ∃ after,
    saveAll demoStore.savePlan [(planBetween "sea" "land", default),
        (planBetween "sea" "land--ice", default)] shelvedDisk =
      ([planBetween "sea" "land", planBetween "sea" "land--ice"], after) ∧
      demoStore.planPath "sea" "land--ice" ≠ demoStore.planPath "sea" "land" ∧
      demoStore.loadPlan after "sea" "land" = .ok (planBetween "sea" "land") := by
  obtain ⟨saved, after, runs⟩ := exists_saveAll_eq demoStore.savePlan
    [(planBetween "sea" "land", default), (planBetween "sea" "land--ice", default)] shelvedDisk
  obtain ⟨all, paths, -, loads⟩ := loadPlan_saveAll isHome_shelvedDisk runs "sea" "land"
    (by decide) (by decide)
  obtain rfl := all fun each _ =>
    canWrite_shelvedDisk (.plan each.1.featureName each.1.targetProject)
  have told : EndsBeforeDashes "sea" := by decide
  refine ⟨after, runs, fun same => ?_, ?_⟩
  · have samePair :=
      ((paths "sea" "land--ice" (by decide) (by decide)).2 (.inl ⟨told, told⟩)).mp same
    exact absurd samePair.2 (by decide)
  · rw [loads (by decide) (.inl ⟨by simpa [planBetween] using told, told⟩)]
    simp [planBetween]

/-- A plan is loaded as another that was saved later for other names. -/
theorem loadPlan_alike : ∃ after,
    saveAll demoStore.savePlan [(planBetween "sea" "land--ice", default),
        (planBetween "sea--land" "ice", default)] shelvedDisk =
      ([planBetween "sea" "land--ice", planBetween "sea--land" "ice"], after) ∧
      demoStore.planPath "sea" "land--ice" = demoStore.planPath "sea--land" "ice" ∧
      demoStore.loadPlan after "sea" "land--ice" = .ok (planBetween "sea--land" "ice") := by
  have sameName : Document.planName "sea" "land--ice" = Document.planName "sea--land" "ice" := by
    rw [Document.planName_eq_joined (by decide) (by decide),
      Document.planName_eq_joined (by decide) (by decide)]
    decide
  have all := demoStore.savePlan_savesTo.saveAll_eq_of_writable
    [(planBetween "sea" "land--ice", default), (planBetween "sea--land" "ice", default)]
    isHome_shelvedDisk
    fun each _ => canWrite_shelvedDisk (.plan each.1.featureName each.1.targetProject)
  have loads := loadPlan_saveAll_eq isHome_shelvedDisk
    [(planBetween "sea" "land--ice", default), (planBetween "sea--land" "ice", default)]
    "sea" "land--ice"
  obtain ⟨saved, after, runs⟩ := exists_saveAll_eq demoStore.savePlan
    [(planBetween "sea" "land--ice", default), (planBetween "sea--land" "ice", default)] shelvedDisk
  rw [runs] at all loads
  obtain rfl := all
  refine ⟨after, runs, (Document.planPath_eq_iff _).mpr (Document.plan_eq_iff.mpr sameName), ?_⟩
  rw [loads]
  simp [planBetween, sameName]

end Store

end CodeAtlas
