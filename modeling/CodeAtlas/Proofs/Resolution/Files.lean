import CodeAtlas.Proofs.FileIndex
import CodeAtlas.Proofs.Indexing.Link

/-!
# Files that imports lead to

The rules of every language look files up in the index, so whatever they find is a file of the
index, also for an import that makes no sense.  The answer for an import is what they find without
the importer, each file once.
-/

namespace CodeAtlas

namespace Resolution

/-- All files of an answer are in the index. -/
def IsIndexed (index : FileIndex) (resolution : Resolution) : Prop :=
  ∀ path ∈ resolution.paths, index.contains path = true

variable {index : FileIndex} {importer : String} {found : Import}

theorem isIndexed_internal {paths : List String}
    (indexed : ∀ path ∈ paths, index.contains path = true) :
    (internal paths).IsIndexed index :=
  indexed

theorem isIndexed_ofPaths {paths : List String}
    (indexed : ∀ path ∈ paths, index.contains path = true) :
    (ofPaths paths).IsIndexed index := by
  intro path member
  rw [paths_ofPaths] at member
  exact indexed path member

theorem isIndexed_ofPath? {path? : Option String}
    (indexed : ∀ path, path? = some path → index.contains path = true) :
    (ofPath? path?).IsIndexed index :=
  isIndexed_ofPaths fun path member => indexed path (Option.mem_toList.mp member)

theorem isIndexed_external (package : String) : (external package).IsIndexed index :=
  nofun

theorem isIndexed_standard : standard.IsIndexed index :=
  nofun

theorem isIndexed_unresolved : unresolved.IsIndexed index :=
  nofun

/-! ## Dotted imports -/

namespace Dotted

theorem contains_of_mem_withModules {file path : String} {names : List String}
    (known : index.contains file = true) (member : path ∈ withModules index file names) :
    index.contains path = true := by
  have alone : ∀ other ∈ [file], index.contains other = true := by simpa using known
  unfold withModules at member
  split at member
  next =>
    -- Every name adds a file of the index or nothing.
    refine List.foldlRecOn (motive := fun paths => ∀ other ∈ paths, index.contains other = true)
      _ _ alone ?_ path member
    intro paths indexed name _
    split
    next module isFile =>
      split
      next => exact indexed
      next =>
        intro other otherMember
        rcases List.mem_append.mp otherMember with old | new
        · exact indexed other old
        · rw [List.mem_singleton.mp new]
          exact FileIndex.contains_of_firstExisting? isFile
    next => exact indexed
  next => exact alone path member

theorem isIndexed_resolveRelative : (resolveRelative importer found index).IsIndexed index := by
  unfold resolveRelative
  split
  next => exact isIndexed_unresolved
  next directory _ =>
    split
    next =>
      dsimp only
      split
      next =>
        exact isIndexed_ofPath? fun path isFile => FileIndex.contains_of_firstExisting? isFile
      next =>
        refine isIndexed_internal ?_
        intro path member
        obtain ⟨name, _, isFile⟩ := List.mem_filterMap.mp member
        exact FileIndex.contains_of_firstExisting? isFile
    next =>
      split
      next file isFile =>
        exact isIndexed_internal fun path =>
          contains_of_mem_withModules (FileIndex.contains_of_firstExisting? isFile)
      next => exact isIndexed_unresolved

theorem isIndexed_resolve : (resolve importer found index).IsIndexed index := by
  unfold resolve
  split
  next => exact isIndexed_resolveRelative
  next =>
    dsimp only
    split
    next file rooted =>
      obtain ⟨root, _, isFile⟩ := List.exists_of_findSome?_eq_some rooted
      exact isIndexed_internal fun path =>
        contains_of_mem_withModules (FileIndex.contains_of_firstExisting? isFile)
    next =>
      split
      next => exact isIndexed_standard
      next =>
        split
        next file matched =>
          have known : index.contains file = true := by
            rcases Option.or_eq_some_iff.mp matched with ofModule | ⟨_, ofPackage⟩
            · exact FileIndex.contains_of_suffixMatch? ofModule
            · exact FileIndex.contains_of_suffixMatch? ofPackage
          exact isIndexed_internal fun path => contains_of_mem_withModules known
        next => exact isIndexed_external _

end Dotted

/-! ## Paths within a crate -/

namespace Crate

theorem contains_of_deepestModule? {base path : String} {segments : List String}
    (deepest : deepestModule? index base segments = some path) : index.contains path = true := by
  rcases Option.or_eq_some_iff.mp deepest with along | ⟨_, root⟩
  · obtain ⟨depth, _, isFile⟩ := List.exists_of_findSome?_eq_some along
    exact FileIndex.contains_of_firstExisting? isFile
  · exact FileIndex.contains_of_firstExisting? root

theorem contains_of_mem_filesWithin {base path : String} {segments names : List String}
    (member : path ∈ filesWithin index base segments names) : index.contains path = true := by
  rcases List.mem_append.mp member with ofName | parent
  · obtain ⟨name, _, isFile⟩ := List.mem_filterMap.mp ofName
    split at isFile
    next => cases isFile
    next => exact FileIndex.contains_of_firstExisting? isFile
  · split at parent
    next => exact contains_of_deepestModule? (Option.mem_toList.mp parent)
    next => simp at parent

theorem isIndexed_filesWithin (base : String) (segments names : List String) :
    (ofPaths (filesWithin index base segments names).eraseDups).IsIndexed index :=
  isIndexed_ofPaths fun _ member => contains_of_mem_filesWithin (List.mem_eraseDups.mp member)

theorem isIndexed_resolve : (resolve importer found index).IsIndexed index := by
  unfold resolve
  dsimp only
  split
  next => exact isIndexed_ofPath? fun path isFile => FileIndex.contains_of_firstExisting? isFile
  next =>
    split
    next => exact isIndexed_unresolved
    next first rest _ =>
      -- Each kind of first segment either gives a directory to look below or no file at all.
      split
      next =>
        split
        next => exact isIndexed_filesWithin _ _ _
        next => exact isIndexed_unresolved
      next =>
        split
        next => exact isIndexed_filesWithin _ _ _
        next =>
          split
          next => exact isIndexed_filesWithin _ _ _
          next =>
            split
            next => exact isIndexed_standard
            next =>
              split
              next => exact isIndexed_filesWithin _ _ _
              next =>
                split
                next => exact isIndexed_filesWithin _ _ _
                next => exact isIndexed_external _

end Crate

/-! ## Specifiers of scripts -/

namespace Script

theorem isIndexed_resolve : (resolve importer found index).IsIndexed index := by
  unfold resolve
  dsimp only
  split
  next => exact isIndexed_unresolved
  next =>
    split
    next =>
      refine isIndexed_ofPath? ?_
      intro path isFile
      obtain ⟨base, _, isFile⟩ := Option.bind_eq_some_iff.mp isFile
      exact FileIndex.contains_of_firstExisting? isFile
    next =>
      split
      next rest _ =>
        refine isIndexed_ofPath? ?_
        intro path rooted
        obtain ⟨root, _, isFile⟩ := List.exists_of_findSome?_eq_some rooted
        exact FileIndex.contains_of_firstExisting? isFile
      next =>
        split
        next => exact isIndexed_standard
        next =>
          split
          next path matched =>
            split at matched
            next =>
              obtain ⟨ending, _, isFile⟩ := List.exists_of_findSome?_eq_some matched
              refine isIndexed_internal ?_
              simpa using FileIndex.contains_of_suffixMatch? isFile
            next => cases matched
          next => exact isIndexed_external _

end Script

/-! ## Packages and headers -/

theorem isIndexed_resolveGo : (resolveGo found index).IsIndexed index := by
  unfold resolveGo
  dsimp only
  split
  next =>
    exact isIndexed_ofPaths fun path member =>
      FileIndex.contains_of_mem_filesIn (List.mem_filter.mp member).1
  next =>
    split
    next => exact isIndexed_standard
    next => exact isIndexed_external _

theorem isIndexed_resolveJava : (resolveJava found index).IsIndexed index := by
  unfold resolveJava
  split
  next => exact isIndexed_standard
  next =>
    extract_lets directory files
    have indexed : ∀ path ∈ files, index.contains path = true := by
      intro path member
      dsimp only [files] at member
      split at member
      next => exact FileIndex.contains_of_mem_filesInSuffix (List.mem_filter.mp member).1
      next =>
        rcases Option.or_eq_some_iff.mp (Option.mem_toList.mp member) with ofClass | ⟨_, ofOuter⟩
        · exact FileIndex.contains_of_suffixMatch? ofClass
        · exact FileIndex.contains_of_suffixMatch? ofOuter
    split
    next => exact isIndexed_external _
    next => exact isIndexed_internal indexed

theorem isIndexed_resolveInclude : (resolveInclude importer found index).IsIndexed index := by
  unfold resolveInclude
  dsimp only
  split
  next => exact isIndexed_unresolved
  next =>
    split
    next =>
      split
      next path matched =>
        refine isIndexed_internal ?_
        rcases Option.or_eq_some_iff.mp matched with beside | ⟨_, anywhere⟩
        · obtain ⟨base, _, isFile⟩ := Option.bind_eq_some_iff.mp beside
          simpa using FileIndex.contains_of_firstExisting? isFile
        · simpa using FileIndex.contains_of_suffixMatch? anywhere
      next =>
        split
        next => exact isIndexed_standard
        next => exact isIndexed_unresolved
    next =>
      split
      next => exact isIndexed_standard
      next =>
        split
        next path matched =>
          refine isIndexed_internal ?_
          simpa using FileIndex.contains_of_suffixMatch? matched
        next => exact isIndexed_external _

/-! ## Without the importer -/

theorem ofPaths_eq_internal_iff {paths others : List String} :
    ofPaths paths = internal others ↔ paths = others ∧ others ≠ [] := by
  cases paths with
  | nil => simp [ofPaths]
  | cons first rest =>
      rw [show ofPaths (first :: rest) = internal (first :: rest) from rfl, internal.injEq]
      exact ⟨fun same => ⟨same, same ▸ List.cons_ne_nil _ _⟩, And.left⟩

theorem mem_paths_ofPath?_iff {path? : Option String} {path : String} :
    path ∈ (ofPath? path?).paths ↔ path? = some path := by
  rw [ofPath?, paths_ofPaths, Option.mem_toList]

theorem withoutImporter_eq_internal_iff {resolution : Resolution} {paths : List String} :
    resolution.withoutImporter importer = internal paths ↔
      (resolution.paths.filter (· != importer)).eraseDups = paths ∧ paths ≠ [] := by
  cases resolution with
  | internal files => exact ofPaths_eq_internal_iff
  | external package => simp [withoutImporter, Resolution.paths]
  | standard => simp [withoutImporter, Resolution.paths]
  | unresolved => simp [withoutImporter, Resolution.paths]

theorem withoutImporter_eq_unresolved {resolution : Resolution}
    (only : ∀ path, path ∈ resolution.paths ↔ path = importer) :
    resolution.withoutImporter importer = unresolved := by
  cases resolution with
  | internal files =>
      have none : files.filter (· != importer) = [] := by
        refine List.filter_eq_nil_iff.mpr fun path member => ?_
        simpa using (only path).mp member
      rw [withoutImporter, none]
      rfl
  | external package => exact absurd ((only importer).mpr rfl) List.not_mem_nil
  | standard => exact absurd ((only importer).mpr rfl) List.not_mem_nil
  | unresolved => rfl

end Resolution

/-! ## All languages -/

namespace Import

/-- What the rules of a language find for an import of a file, be it the file itself. -/
def lookUp (language : Language) (importer : String) (index : FileIndex) (found : Import) :
    Resolution :=
  match language with
  | .python => Resolution.Dotted.resolve importer found index
  | .rust => Resolution.Crate.resolve importer found index
  | .typeScript | .javaScript => Resolution.Script.resolve importer found index
  | .go => Resolution.resolveGo found index
  | .java => Resolution.resolveJava found index
  | .c | .cpp => Resolution.resolveInclude importer found index

/-- The import out of the same module that brings in other names. -/
def naming (found : Import) (names : List String) : Import := { found with names }

theorem resolve_eq (found : Import) (language : Language) (importer : String)
    (index : FileIndex) :
    found.resolve language importer index =
      (found.lookUp language importer index).withoutImporter importer := by
  cases language <;> rfl

theorem mem_paths_resolve_iff {found : Import} {language : Language} {importer path : String}
    {index : FileIndex} :
    path ∈ (found.resolve language importer index).paths ↔
      path ∈ (found.lookUp language importer index).paths ∧ path ≠ importer := by
  simp [resolve_eq, Resolution.paths_withoutImporter]

theorem isIndexed_lookUp (found : Import) (language : Language) (importer : String)
    (index : FileIndex) : (found.lookUp language importer index).IsIndexed index := by
  unfold lookUp
  cases language with
  | python => exact Resolution.Dotted.isIndexed_resolve
  | rust => exact Resolution.Crate.isIndexed_resolve
  | typeScript | javaScript => exact Resolution.Script.isIndexed_resolve
  | go => exact Resolution.isIndexed_resolveGo
  | java => exact Resolution.isIndexed_resolveJava
  | c | cpp => exact Resolution.isIndexed_resolveInclude

/-- An import leads to at least one other file of the index and to each one once, and these are
what the rules of the language find beside the importer.  It is unresolved where they find the
importer alone. -/
theorem resolve_leads_elsewhere (found : Import) (language : Language) (importer : String)
    (index : FileIndex) :
    (∀ paths, found.resolve language importer index = .internal paths →
      paths ≠ [] ∧ paths.Nodup ∧ importer ∉ paths ∧
        ∀ path ∈ paths, index.contains path = true) ∧
    (∀ path, path ∈ (found.resolve language importer index).paths ↔
      path ∈ (found.lookUp language importer index).paths ∧ path ≠ importer) ∧
    ((∀ path, path ∈ (found.lookUp language importer index).paths ↔ path = importer) →
      found.resolve language importer index = .unresolved) := by
  rw [resolve_eq]
  have indexed := isIndexed_lookUp found language importer index
  generalize found.lookUp language importer index = resolution at indexed ⊢
  refine ⟨?internal, ?kept, Resolution.withoutImporter_eq_unresolved⟩
  case internal =>
    intro paths same
    obtain ⟨rfl, some⟩ := Resolution.withoutImporter_eq_internal_iff.mp same
    refine ⟨some, nodup_eraseDups _, by simp, ?_⟩
    intro path member
    exact indexed path (List.mem_filter.mp (List.mem_eraseDups.mp member)).1
  case kept => simp [Resolution.paths_withoutImporter]

/-- A project with a file that has the name of a package which the file imports. -/
def shadowingFiles : FileIndex :=
  .ofPaths ["main.py", "pkg/__init__.py", "pkg/util.py", "requests.py"] none

/-- One name of a package of the project, brought in twice. -/
def utilities : Import := ⟨"pkg", none, ["util", "util"], 0, .importStatement, 1⟩

def requests : Import := .new "requests" .importStatement 1

theorem resolve_shadowingFiles :
    ["pkg/__init__.py", "pkg/util.py"].Nodup ∧
      utilities.resolve .python "main.py" shadowingFiles =
        .internal ["pkg/__init__.py", "pkg/util.py"] ∧
      requests.resolve .python "requests.py" shadowingFiles = .unresolved := by
  have files : utilities.resolve .python "main.py" shadowingFiles =
      .internal ["pkg/__init__.py", "pkg/util.py"] := by decide +kernel
  have itself : (requests.lookUp .python "requests.py" shadowingFiles).paths = ["requests.py"] := by
    decide +kernel
  refine ⟨((resolve_leads_elsewhere utilities .python "main.py" shadowingFiles).1 _ files).2.1,
    files, ?_⟩
  refine (resolve_leads_elsewhere requests .python "requests.py" shadowingFiles).2.2 ?_
  intro path
  rw [itself, List.mem_singleton]

end Import

end CodeAtlas
