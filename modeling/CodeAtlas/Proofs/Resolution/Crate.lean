import CodeAtlas.Proofs.Resolution.Files
import CodeAtlas.Proofs.Resolution.Package

/-!
# Names of Rust imports

Each name that an import brings in leads somewhere on its own: to its module, or else to the
deepest module along the path.  So an import with several names leads to what the imports with one
of the names lead to.
-/

namespace CodeAtlas

/-- What an import can lead to. -/
inductive Place
  | file (path : String)
  | package (name : String)

namespace Resolution

/-- An answer leads to a file or a package. -/
def LeadsTo (resolution : Resolution) : Place → Prop
  | .file path => path ∈ resolution.paths
  | .package name => resolution = .external name

theorem not_leadsTo_package_ofPaths (paths : List String) (name : String) :
    ¬(ofPaths paths).LeadsTo (.package name) :=
  ofPaths_ne_external paths name

namespace Crate

variable {index : FileIndex} {importer : String}

/-- The file of a name below a path, if it is a module there. -/
def moduleOfName? (index : FileIndex) (base : String) (path : List String) (name : String) :
    Option String :=
  if name = "self" || name = "*" then none
  else moduleFile? index (Path.join base (Path.ofSegments (path ++ [name])))

theorem mem_filesWithin_iff {base file : String} {path names : List String} :
    file ∈ filesWithin index base path names ↔
      (∃ name ∈ names, moduleOfName? index base path name = some file) ∨
        (names = [] ∨ ∃ name ∈ names, moduleOfName? index base path name = none) ∧
          deepestModule? index base path = some file := by
  have parts : filesWithin index base path names =
      names.filterMap (moduleOfName? index base path) ++
        if names.isEmpty || names.any fun name => (moduleOfName? index base path name).isNone then
          (deepestModule? index base path).toList
        else [] := rfl
  rw [parts, List.mem_append, List.mem_filterMap]
  refine or_congr_right ?_
  split
  next needed =>
    have missing : names = [] ∨ ∃ name ∈ names, moduleOfName? index base path name = none := by
      simpa using needed
    rw [Option.mem_toList, and_iff_right missing]
  next notNeeded =>
    have complete : ¬(names = [] ∨
        ∃ name ∈ names, moduleOfName? index base path name = none) := by
      simpa using notNeeded
    exact iff_of_false List.not_mem_nil fun missing => complete missing.1

/-- Some names lead where each of them leads alone. -/
theorem mem_filesWithin_iff_exists {base file : String} {path names : List String}
    (nonempty : names ≠ []) :
    file ∈ filesWithin index base path names ↔
      ∃ name ∈ names, file ∈ filesWithin index base path [name] := by
  simp only [mem_filesWithin_iff, List.mem_singleton, exists_eq_left, nonempty, false_or,
    List.cons_ne_nil]
  constructor
  · intro leads
    rcases leads with ⟨name, member, isModule⟩ | ⟨⟨name, member, noModule⟩, deepest⟩
    · exact ⟨name, member, .inl isModule⟩
    · exact ⟨name, member, .inr ⟨noModule, deepest⟩⟩
  · intro leads
    obtain ⟨name, member, isModule | ⟨noModule, deepest⟩⟩ := leads
    · exact .inl ⟨name, member, isModule⟩
    · exact .inr ⟨⟨name, member, noModule⟩, deepest⟩

/-- The path of an import decides where its names are looked up, or gives the answer alone. -/
theorem resolve_naming (importer : String) (index : FileIndex) {found : Import}
    (uses : found.kind ≠ .modDeclaration) :
    (∃ base path, ∀ names, resolve importer (found.naming names) index =
      ofPaths (filesWithin index base path names).eraseDups) ∨
    ∃ answer, ∀ names, resolve importer (found.naming names) index = answer := by
  simp only [resolve, Import.naming, uses, if_false]
  -- None of the tests reads the names, so each of them is decided for all names at once.
  cases pathSegments found.module with
  | nil => exact .inr ⟨_, fun _ => rfl⟩
  | cons first rest =>
      dsimp only
      by_cases isRoot : first = "crate"
      · simp only [isRoot, if_true]
        cases crateRoot? index importer with
        | some root => exact .inl ⟨root, rest, fun _ => rfl⟩
        | none => exact .inr ⟨_, fun _ => rfl⟩
      by_cases isSelf : first = "self"
      · simp only [isSelf, String.reduceEq, if_false, if_true]
        exact .inl ⟨_, rest, fun _ => rfl⟩
      by_cases isSuper : first = "super"
      · simp only [isSuper, String.reduceEq, if_false, if_true]
        exact .inl ⟨_, _, fun _ => rfl⟩
      simp only [isRoot, isSelf, isSuper, if_false]
      by_cases isStandard : Standard.isRust first = true
      · simp only [isStandard, if_true]
        exact .inr ⟨_, fun _ => rfl⟩
      simp only [isStandard]
      by_cases isModule :
          (moduleFile? index (Path.join (moduleDirectory importer) first)).isSome = true
      · simp only [isModule, if_true]
        exact .inl ⟨_, first :: rest, fun _ => rfl⟩
      simp only [isModule]
      cases workspaceCrate? index first with
      | some root => exact .inl ⟨root, rest, fun _ => rfl⟩
      | none => exact .inr ⟨_, fun _ => rfl⟩

end Crate

theorem leadsTo_withoutImporter_iff {resolution : Resolution} {importer : String}
    {place : Place} :
    (resolution.withoutImporter importer).LeadsTo place ↔
      resolution.LeadsTo place ∧ place ≠ .file importer := by
  cases place with
  | file path =>
      simp [LeadsTo, paths_withoutImporter]
  | package name =>
      simp [LeadsTo, withoutImporter_eq_external_iff]

end Resolution

namespace Import

/-- An import of a Rust file leads to a file or a package. -/
def LeadsTo (importer : String) (index : FileIndex) (found : Import) (place : Place) : Prop :=
  (found.resolve .rust importer index).LeadsTo place

variable {found : Import} {importer : String} {index : FileIndex}

theorem leadsTo_iff {place : Place} :
    found.LeadsTo importer index place ↔
      (Resolution.Crate.resolve importer found index).LeadsTo place ∧
        place ≠ .file importer := by
  rw [LeadsTo, resolve_eq]
  exact Resolution.leadsTo_withoutImporter_iff

/-- An import with some names leads where the imports with one of them lead. -/
theorem leadsTo_naming_iff (uses : found.kind ≠ .modDeclaration) {names : List String}
    (nonempty : names ≠ []) {place : Place} :
    (found.naming names).LeadsTo importer index place ↔
      ∃ name ∈ names, (found.naming [name]).LeadsTo importer index place := by
  obtain ⟨first, member⟩ := List.exists_mem_of_ne_nil names nonempty
  simp only [leadsTo_iff]
  rcases Resolution.Crate.resolve_naming importer index uses with
    ⟨base, path, below⟩ | ⟨answer, always⟩
  · simp only [below]
    cases place with
    | file path =>
        simp only [Resolution.LeadsTo, Resolution.paths_ofPaths, List.mem_eraseDups]
        rw [Resolution.Crate.mem_filesWithin_iff_exists nonempty]
        simp only [← and_assoc, exists_and_right]
    | package name =>
        simp [Resolution.not_leadsTo_package_ofPaths]
  · simp only [always]
    exact ⟨fun leads => ⟨first, member, leads⟩, fun ⟨_, _, leads⟩ => leads⟩

end Import

end CodeAtlas
