import CodeAtlas.Proofs.CodeReference
import CodeAtlas.Proofs.FirstOccurrence
import CodeAtlas.Proofs.Graph.ClosureOrder

/-!
# Extracted features

What a feature holds is said about the edges of the graph alone: its components are what the
primary module reaches, in dependency-first order where that is possible.  Extraction succeeds
exactly when every component is a file, and a text if texts are asked for.
-/

namespace CodeAtlas

/-- The external packages of some modules as often as they use them. -/
def Graph.uses (graph : Graph) (paths : List String) : List String :=
  paths.flatMap fun path =>
    match graph.module? path with
    | some module => module.externalDeps
    | none => []

namespace Feature

/-- What a feature around a primary module of a graph has to hold. -/
structure IsAround (graph : Graph) (primary : String) (options : ExtractOptions)
    (feature : Feature) : Prop where
  distinct : feature.components.Nodup
  components : ∀ path, path ∈ feature.components ↔ graph.Reaches primary path
  dependenciesFirst : feature.ordering = .complete →
    ∀ before path after, feature.components = before ++ path :: after →
      ∀ target, graph.Leads path target → target ≠ path → target ∈ before
  primaryLast : feature.ordering = .complete → feature.components.getLast? = some primary
  degraded : (∃ appended, feature.ordering = .degraded appended) ↔ graph.ReachesCycle primary
  primaryAppended : ∀ appended, feature.ordering = .degraded appended →
    appended.head? = some primary
  packages : ∀ package, package ∈ feature.requires ↔ package ∈ graph.uses feature.components
  packagesInOrder : feature.requires.Pairwise fun first second =>
    (graph.uses feature.components).idxOf first < (graph.uses feature.components).idxOf second
  packagesOnce : feature.requires.Nodup
  references : ∀ path, path ∈ feature.codeRefs.keys ↔ path ∈ feature.components
  snapshots : if options.snapshots then
      ∃ texts, feature.snapshots = some texts ∧
        ∀ path, path ∈ texts.keys ↔ path ∈ feature.components
    else feature.snapshots = none

variable {graph : Graph} {disk : Disk} {root primary : String} {options : ExtractOptions}
  {now : Instant} {feature : Feature}

/-- Capture a component, with its path. -/
def captureEntry (disk : Disk) (root path : String) : Except Problem (String × CodeReference) :=
  do return (path, ← CodeReference.capture disk root path none)

/-- Load the text of a component, with its path. -/
def loadEntry (disk : Disk) (root : String) (entry : String × CodeReference) :
    Except Problem (String × String) :=
  do return (entry.1, ← entry.2.load disk root)

theorem captureEntry_eq_ok_iff {path : String} {entry : String × CodeReference} :
    captureEntry disk root path = .ok entry ↔
      entry.1 = path ∧ CodeReference.capture disk root path none = .ok entry.2 := by
  rw [captureEntry, bind_eq_ok_iff]
  constructor
  · intro success
    obtain ⟨reference, captured, whole⟩ := success
    cases whole
    exact ⟨rfl, captured⟩
  · intro described
    obtain ⟨rfl, captured⟩ := described
    exact ⟨entry.2, captured, rfl⟩

theorem loadEntry_eq_ok_iff {entry : String × CodeReference} {loaded : String × String} :
    loadEntry disk root entry = .ok loaded ↔
      loaded.1 = entry.1 ∧ entry.2.load disk root = .ok loaded.2 := by
  rw [loadEntry, bind_eq_ok_iff]
  constructor
  · intro success
    obtain ⟨text, read, whole⟩ := success
    cases whole
    exact ⟨rfl, read⟩
  · intro described
    obtain ⟨same, read⟩ := described
    exact ⟨loaded.2, read, by rw [← same]; rfl⟩

/-- The texts that references name, if texts are asked for. -/
def loadAsked (disk : Disk) (root : String) (options : ExtractOptions)
    (references : Keyed CodeReference) : Except Problem (Option (Keyed String)) :=
  if options.snapshots then (loadAll disk root references).map some else .ok none

theorem loadAsked_eq_ok_iff {references : Keyed CodeReference}
    {snapshots : Option (Keyed String)} :
    loadAsked disk root options references = .ok snapshots ↔
      if options.snapshots then
        ∃ texts, loadAll disk root references = .ok texts ∧ snapshots = some texts
      else snapshots = none := by
  rw [loadAsked]
  cases options.snapshots with
  | false => simp [eq_comm]
  | true => cases loadAll disk root references <;> simp [Except.map, eq_comm]

/-- The feature of a module, what has been captured, and the texts. -/
def assembled (graph : Graph) (primary : String) (options : ExtractOptions) (now : Instant)
    (module : Module) (captured : List (String × CodeReference))
    (snapshots : Option (Keyed String)) : Feature where
  name := options.name.getD (Path.stem module.path)
  sourceProject := graph.project
  extractedAt := now
  primary
  components := (graph.order (graph.closure primary)).order
  ordering := (graph.order (graph.closure primary)).status
  requires := graph.packagesOf (graph.order (graph.closure primary)).order
  provides := module.interfaces.map .ofInterface
  codeRefs := .ofList captured
  snapshots

/-- Extraction orders the closure of a module, captures it, and loads it if asked to. -/
theorem extract_eq_bind {module : Module} (known : graph.module? primary = some module) :
    extract graph disk root primary options now =
      (graph.order (graph.closure primary)).order.mapM (captureEntry disk root) >>=
        fun captured => loadAsked disk root options (.ofList captured) >>=
          fun snapshots => .ok (assembled graph primary options now module captured snapshots) := by
  unfold extract
  rw [known]
  refine congrArg (_ >>= ·) (funext fun captured => ?_)
  rw [loadAsked]
  cases options.snapshots <;> rfl

theorem extract_eq_ok_iff :
    extract graph disk root primary options now = .ok feature ↔
      ∃ module captured snapshots, graph.module? primary = some module ∧
        (graph.order (graph.closure primary)).order.mapM (captureEntry disk root) = .ok captured ∧
        loadAsked disk root options (.ofList captured) = .ok snapshots ∧
        assembled graph primary options now module captured snapshots = feature := by
  cases known : graph.module? primary with
  | none =>
      unfold extract
      simp [known, throw, throwThe, MonadExceptOf.throw]
  | some module =>
      rw [extract_eq_bind known]
      simp only [bind_eq_ok_iff, Except.ok.injEq, Option.some.injEq]
      constructor
      · intro success
        obtain ⟨captured, all, snapshots, loaded, whole⟩ := success
        exact ⟨module, captured, snapshots, rfl, all, loaded, whole⟩
      · intro described
        obtain ⟨_, captured, snapshots, rfl, all, loaded, whole⟩ := described
        exact ⟨captured, all, snapshots, loaded, whole⟩

theorem loadAll_eq_ok_iff {references : Keyed CodeReference} {texts : Keyed String} :
    loadAll disk root references = .ok texts ↔
      ∃ loaded, references.entries.mapM (loadEntry disk root) = .ok loaded ∧
        texts = .ofList loaded := by
  rw [loadAll, bind_eq_ok_iff]
  constructor
  · intro success
    obtain ⟨loaded, success, whole⟩ := success
    cases whole
    exact ⟨loaded, success, rfl⟩
  · intro described
    obtain ⟨loaded, success, rfl⟩ := described
    exact ⟨loaded, success, rfl⟩

section Captured

variable {paths : List String} {captured : List (String × CodeReference)}

theorem captureAll_succeeds_iff :
    (∃ captured, paths.mapM (captureEntry disk root) = .ok captured) ↔
      ∀ path ∈ paths, disk.isFile (Path.resolve root path) = true := by
  rw [mapM_succeeds_iff]
  refine forall₂_congr ?_
  intro path _
  simp only [captureEntry_eq_ok_iff]
  constructor
  · intro success
    obtain ⟨entry, _, captured⟩ := success
    exact CodeReference.capture_succeeds_iff.mp ⟨entry.2, captured⟩
  · intro isFile
    obtain ⟨reference, captured⟩ := CodeReference.capture_succeeds_iff.mpr isFile
    exact ⟨(path, reference), rfl, captured⟩

theorem mem_keys_captured (success : paths.mapM (captureEntry disk root) = .ok captured)
    {path : String} : path ∈ (Keyed.ofList captured).keys ↔ path ∈ paths := by
  have keys : captured.map (·.1) = paths.map id :=
    map_eq_map_of_mapM success fun _ _ result => (captureEntry_eq_ok_iff.mp result).1
  rw [Keyed.mem_keys_ofList, keys, List.map_id]

theorem mem_keys_loaded {references : Keyed CodeReference} {texts : Keyed String}
    (success : loadAll disk root references = .ok texts) {path : String} :
    path ∈ texts.keys ↔ path ∈ references.keys := by
  obtain ⟨loaded, all, rfl⟩ := loadAll_eq_ok_iff.mp success
  have keys : loaded.map (·.1) = references.entries.map (·.1) :=
    map_eq_map_of_mapM all fun _ _ result => (loadEntry_eq_ok_iff.mp result).1
  rw [Keyed.mem_keys_ofList, keys, Keyed.keys]

/-- Captured components can be loaded exactly when all of them are texts. -/
theorem loadAll_captured_succeeds_iff
    (success : paths.mapM (captureEntry disk root) = .ok captured) :
    (∃ texts, loadAll disk root (.ofList captured) = .ok texts) ↔
      ∀ path ∈ paths, ∃ text, disk.readText (Path.resolve root path) = .ok text := by
  have described {entry : String × CodeReference}
      (member : entry ∈ (Keyed.ofList captured).entries) {text : String} :
      entry.2.load disk root = .ok text ↔
        disk.readText (Path.resolve root entry.1) = .ok text := by
    obtain ⟨path, _, result⟩ := exists_item_of_mapM success (Keyed.mem_of_mem_ofList member)
    obtain ⟨rfl, capture⟩ := captureEntry_eq_ok_iff.mp result
    rw [CodeReference.load_eq_ok_iff (CodeReference.lines_of_capture capture),
      CodeReference.path_of_capture capture]
  have loads : (∃ texts, loadAll disk root (.ofList captured) = .ok texts) ↔
      ∃ loaded, (Keyed.ofList captured).entries.mapM (loadEntry disk root) = .ok loaded := by
    simp only [loadAll_eq_ok_iff]
    constructor
    · intro success
      obtain ⟨_, loaded, all, _⟩ := success
      exact ⟨loaded, all⟩
    · intro success
      obtain ⟨loaded, all⟩ := success
      exact ⟨_, loaded, all, rfl⟩
  rw [loads, mapM_succeeds_iff]
  constructor
  · intro all path member
    obtain ⟨reference, entry⟩ :=
      Keyed.mem_keys_iff.mp ((mem_keys_captured success).mpr member)
    have entryMember := Keyed.get?_eq_some_iff.mp entry
    obtain ⟨loaded, result⟩ := all _ entryMember
    exact ⟨loaded.2, (described entryMember).mp (loadEntry_eq_ok_iff.mp result).2⟩
  · intro all entry member
    have key : entry.1 ∈ (Keyed.ofList captured).keys := List.mem_map_of_mem member
    obtain ⟨text, read⟩ := all entry.1 ((mem_keys_captured success).mp key)
    exact ⟨(entry.1, text), loadEntry_eq_ok_iff.mpr ⟨rfl, (described member).mpr read⟩⟩

/-- Texts are a matter only if they are asked for. -/
theorem loadAsked_captured_succeeds_iff
    (success : paths.mapM (captureEntry disk root) = .ok captured) :
    (∃ snapshots, loadAsked disk root options (.ofList captured) = .ok snapshots) ↔
      (options.snapshots = true →
        ∀ path ∈ paths, ∃ text, disk.readText (Path.resolve root path) = .ok text) := by
  rw [← loadAll_captured_succeeds_iff success]
  simp only [loadAsked_eq_ok_iff]
  cases options.snapshots with
  | false => simp
  | true => simp

theorem snapshots_of_loadAsked {snapshots : Option (Keyed String)}
    (success : paths.mapM (captureEntry disk root) = .ok captured)
    (loaded : loadAsked disk root options (.ofList captured) = .ok snapshots) :
    if options.snapshots then
      ∃ texts, snapshots = some texts ∧ ∀ path, path ∈ texts.keys ↔ path ∈ paths
    else snapshots = none := by
  have described := loadAsked_eq_ok_iff.mp loaded
  by_cases asked : options.snapshots = true
  · rw [if_pos asked] at described ⊢
    obtain ⟨texts, result, same⟩ := described
    exact ⟨texts, same, fun path => (mem_keys_loaded result).trans (mem_keys_captured success)⟩
  · rwa [if_neg asked] at described ⊢

end Captured

/-- Extraction succeeds on a known module whose closure consists of files, which have to be texts
if texts are asked for. -/
theorem extract_succeeds_iff :
    (∃ feature, extract graph disk root primary options now = .ok feature) ↔
      graph.contains primary = true ∧
        (∀ path, graph.Reaches primary path →
          disk.isFile (Path.resolve root path) = true) ∧
        (options.snapshots = true → ∀ path, graph.Reaches primary path →
          ∃ text, disk.readText (Path.resolve root path) = .ok text) := by
  obtain ⟨placed, left, closure⟩ := graph.exists_orderedClosure primary
  simp only [extract_eq_ok_iff, ← closure.mem_order_iff]
  rw [← captureAll_succeeds_iff]
  constructor
  · intro success
    obtain ⟨_, module, captured, snapshots, known, all, loaded, _⟩ := success
    have contained : graph.contains primary = true :=
      Option.isSome_iff_exists.mpr ⟨module, known⟩
    exact ⟨contained, ⟨captured, all⟩,
      (loadAsked_captured_succeeds_iff all).mp ⟨snapshots, loaded⟩⟩
  · intro conditions
    obtain ⟨contained, ⟨captured, all⟩, texts⟩ := conditions
    obtain ⟨module, known⟩ := Option.isSome_iff_exists.mp contained
    obtain ⟨snapshots, loaded⟩ := (loadAsked_captured_succeeds_iff all).mpr texts
    exact ⟨_, module, captured, snapshots, known, all, loaded, rfl⟩

/-- The external packages of some modules are what they use, each once. -/
theorem packagesOf_eq (paths : List String) :
    graph.packagesOf paths = (graph.uses paths).eraseDups := by
  rw [Graph.packagesOf, Graph.uses]
  congr 2
  funext path
  cases graph.module? path <;> rfl

/-- What extraction yields is a feature around the module. -/
theorem isAround_of_extract (success : extract graph disk root primary options now = .ok feature) :
    feature.IsAround graph primary options := by
  obtain ⟨module, captured, snapshots, _, all, loaded, rfl⟩ := extract_eq_ok_iff.mp success
  obtain ⟨placed, left, closure⟩ := graph.exists_orderedClosure primary
  have requires : (assembled graph primary options now module captured snapshots).requires =
      (graph.uses (graph.order (graph.closure primary)).order).eraseDups :=
    packagesOf_eq _
  refine {
    distinct := closure.nodup_order
    components := fun path => closure.mem_order_iff
    dependenciesFirst := ?_
    primaryLast := ?_
    degraded := ?_
    primaryAppended := ?_
    packages := ?_
    packagesInOrder := ?_
    packagesOnce := ?_
    references := fun path => mem_keys_captured all
    snapshots := snapshots_of_loadAsked all loaded }
  · intro status before path after split target leads different
    have none := closure.status_eq_complete_iff.mp status
    exact closure.dependencies_before none ((closure.order_of_complete none).symm.trans split)
      leads different
  · intro status
    have none := closure.status_eq_complete_iff.mp status
    exact (congrArg List.getLast? (closure.order_of_complete none)).trans
      (closure.getLast?_placed none)
  · rw [← closure.primary_mem_left_iff]
    constructor
    · intro status
      obtain ⟨appended, status⟩ := status
      exact closure.primary_mem_left (closure.status_eq_degraded_iff.mp status).1
    · intro member
      exact ⟨left, closure.status_eq_degraded_iff.mpr ⟨List.ne_nil_of_mem member, rfl⟩⟩
  · intro appended status
    obtain ⟨some, rfl⟩ := closure.status_eq_degraded_iff.mp status
    exact closure.head?_left some
  · intro package
    rw [requires, List.mem_eraseDups]
    rfl
  · rw [requires]
    exact pairwise_idxOf_eraseDups _
  · rw [requires]
    exact nodup_eraseDups _

/-- Extraction yields a feature around the module, or fails for one of three reasons: the module
is unknown, a component is no file, or it is no text and texts are asked for. -/
theorem extract_yields_ordered_closure (graph : Graph) (disk : Disk) (root primary : String)
    (options : ExtractOptions) (now : Instant) :
    (∀ feature, extract graph disk root primary options now = .ok feature →
      feature.IsAround graph primary options) ∧
    ((∃ problem, extract graph disk root primary options now = .error problem) ↔
      graph.contains primary = false ∨
      (∃ path, graph.Reaches primary path ∧ disk.isFile (Path.resolve root path) = false) ∨
      (options.snapshots = true ∧ ∃ path content, graph.Reaches primary path ∧
        disk.read (Path.resolve root path) = .ok content ∧
        String.fromUTF8? content = none)) := by
  refine ⟨fun feature success => isAround_of_extract success, ?_⟩
  rw [exists_error_iff, extract_succeeds_iff]
  constructor
  · intro fails
    by_contra reasons
    simp only [not_or, not_and, not_exists, Bool.not_eq_false] at reasons
    obtain ⟨known, files, texts⟩ := reasons
    refine fails ⟨known, files, ?_⟩
    intro asked path reaches
    obtain ⟨content, read⟩ := Disk.isFile_iff_read.mp (files path reaches)
    obtain ⟨text, decoded⟩ := Option.ne_none_iff_exists'.mp (texts asked path content reaches read)
    exact ⟨text, Disk.readText_eq_ok_iff.mpr ⟨content, read, decoded⟩⟩
  · intro reasons success
    obtain ⟨known, files, texts⟩ := success
    rcases reasons with
      unknown | ⟨path, reaches, noFile⟩ | ⟨asked, path, content, reaches, read, noText⟩
    · simp [unknown] at known
    · rw [files path reaches] at noFile
      cases noFile
    · obtain ⟨text, readText⟩ := texts asked path reaches
      obtain ⟨other, readOther, decoded⟩ := Disk.readText_eq_ok_iff.mp readText
      rw [read] at readOther
      cases readOther
      rw [noText] at decoded
      cases decoded

/-- Two modules that import each other. -/
def mutualImports : Graph where
  project := "mutual"
  version := Graph.documentVersion
  indexedAt := default
  modules := .ofList [("a.py", .new "a.py" .python), ("b.py", .new "b.py" .python)]
  edges := [⟨"a.py", "b.py", .importStatement, []⟩, ⟨"b.py", "a.py", .importStatement, []⟩]

def mutualImportsDisk : Disk :=
  ⟨.ofList [("a.py", .file "import b\n".toUTF8 default),
    ("b.py", .file "import a\n".toUTF8 default)], []⟩

theorem extract_mutual_imports :
    ∃ feature, extract mutualImports mutualImportsDisk "/" "a.py" ⟨none, true⟩ default =
        .ok feature ∧
      feature.IsAround mutualImports "a.py" ⟨none, true⟩ := by
  have reached {path : String} (reaches : mutualImports.Reaches "a.py" path) :
      path ∈ ["a.py", "b.py"] := by
    rcases Relation.ReflTransGen.cases_tail reaches with same | ⟨middle, _, leads⟩
    · exact same ▸ List.mem_cons_self
    · have keys : mutualImports.modules.keys = ["a.py", "b.py"] := by decide +kernel
      rw [← keys]
      exact Graph.contains_iff_mem_keys.mp leads.2.1
  have texts : ∀ path ∈ ["a.py", "b.py"], ∃ text,
      mutualImportsDisk.readText (Path.resolve "/" path) = .ok text := by
    have evaluated : (["a.py", "b.py"].all fun path =>
        (mutualImportsDisk.readText (Path.resolve "/" path)).isOk) = true := by decide +kernel
    intro path member
    have succeeds := List.all_eq_true.mp evaluated path member
    cases result : mutualImportsDisk.readText (Path.resolve "/" path) with
    | error fault => rw [result] at succeeds; cases succeeds
    | ok text => exact ⟨text, rfl⟩
  have isFile {path : String} (reaches : mutualImports.Reaches "a.py" path) :
      mutualImportsDisk.isFile (Path.resolve "/" path) = true := by
    obtain ⟨text, readText⟩ := texts path (reached reaches)
    obtain ⟨content, read, _⟩ := Disk.readText_eq_ok_iff.mp readText
    exact Disk.isFile_iff_read.mpr ⟨content, read⟩
  obtain ⟨feature, success⟩ : ∃ feature,
      extract mutualImports mutualImportsDisk "/" "a.py" ⟨none, true⟩ default = .ok feature :=
    extract_succeeds_iff.mpr
      ⟨by decide +kernel, fun path => isFile, fun _ path reaches => texts path (reached reaches)⟩
  exact ⟨feature, success, (extract_yields_ordered_closure mutualImports mutualImportsDisk "/"
    "a.py" ⟨none, true⟩ default).1 feature success⟩

end Feature

end CodeAtlas
