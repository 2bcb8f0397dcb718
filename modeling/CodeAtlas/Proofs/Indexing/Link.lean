import CodeAtlas.Indexing
import CodeAtlas.Proofs.FirstOccurrence

/-!
# Links of files

Each import of a file contributes modules, packages and edges on its own.  The lists of the file
are those of its imports one after another without repetitions, so dependencies and edges are in
step: a file depends on a target exactly when one of its edges leads there.
-/

namespace CodeAtlas

theorem flatMap_filterMap {α β γ : Type} (view : α → Option β) (parts : β → List γ)
    (items : List α) :
    (items.filterMap view).flatMap parts =
      items.flatMap fun item => (view item).elim [] parts := by
  induction items with
  | nil => rfl
  | cons item rest induction =>
      cases shown : view item <;> simp [shown, induction]

namespace Resolution

variable {resolution : Resolution} {importer : String}

/-- The files that an import leads to. -/
def paths : Resolution → List String
  | .internal paths => paths
  | .external _ | .standard | .unresolved => []

/-- The package that an import leads to. -/
def package? : Resolution → Option String
  | .external package => some package
  | .internal _ | .standard | .unresolved => none

theorem package?_eq_some_iff {package : String} :
    resolution.package? = some package ↔ resolution = .external package := by
  cases resolution <;> simp [package?]

theorem paths_ofPaths (paths : List String) : (ofPaths paths).paths = paths := by
  cases paths <;> rfl

theorem package?_ofPaths (paths : List String) : (ofPaths paths).package? = none := by
  cases paths <;> rfl

theorem paths_withoutImporter :
    (resolution.withoutImporter importer).paths =
      (resolution.paths.filter (· != importer)).eraseDups := by
  cases resolution with
  | internal paths => exact paths_ofPaths _
  | external package => rfl
  | standard => rfl
  | unresolved => rfl

theorem package?_withoutImporter :
    (resolution.withoutImporter importer).package? = resolution.package? := by
  cases resolution with
  | internal paths => exact package?_ofPaths _
  | external package => rfl
  | standard => rfl
  | unresolved => rfl

end Resolution

theorem Import.importer_not_mem_paths (found : Import) (language : Language) (importer : String)
    (index : FileIndex) : importer ∉ (found.resolve language importer index).paths := by
  unfold Import.resolve
  rw [Resolution.paths_withoutImporter, List.mem_eraseDups]
  simp

namespace ReadFile

variable (index : FileIndex) (modules : List String) (file : ReadFile)

/-- Where an import of a file leads. -/
def resolution (found : Import) : Resolution :=
  found.resolve file.language file.path index

/-- The modules that an import of a file leads to. -/
def modulesOf (found : Import) : List String :=
  (file.resolution index found).paths.filter modules.contains

/-- The packages that an import of a file leads to. -/
def packagesOf (found : Import) : List String :=
  (file.resolution index found).package?.toList

/-- Everything that an import of a file leads to. -/
def targetsOf (found : Import) : List String :=
  file.modulesOf index modules found ++ file.packagesOf index found

/-- The edges that an import of a file yields. -/
def edgesOf (found : Import) : List Edge :=
  (file.targetsOf index modules found).map fun target =>
    ⟨file.path, target, found.kind, found.names⟩

/-- The link of an import, also of one that leads nowhere. -/
def linkOf (found : Import) : Link :=
  ⟨found.kind, found.names, file.modulesOf index modules found,
    (file.resolution index found).package?⟩

/-- An import that leads nowhere contributes nothing. -/
theorem flatMap_links {α : Type} (view : Link → List α)
    (nowhere : ∀ kind names, view ⟨kind, names, [], none⟩ = []) :
    (file.links index modules).flatMap view =
      file.outline.imports.flatMap fun found => view (file.linkOf index modules found) := by
  rw [links, flatMap_filterMap]
  refine congrArg (file.outline.imports.flatMap ·) (funext fun found => ?_)
  rw [link?, linkOf, modulesOf, resolution]
  cases found.resolve file.language file.path index with
  | internal paths =>
      cases kept : paths.filter modules.contains <;>
        simp [Resolution.paths, Resolution.package?, kept, nowhere]
  | external package => rfl
  | standard => exact (nowhere _ _).symm
  | unresolved => exact (nowhere _ _).symm

theorem internalDeps_eq :
    (file.module (file.links index modules)).internalDeps =
      (file.outline.imports.flatMap (file.modulesOf index modules)).eraseDups :=
  congrArg List.eraseDups (file.flatMap_links index modules (·.modules) fun _ _ => rfl)

theorem externalDeps_eq :
    (file.module (file.links index modules)).externalDeps =
      (file.outline.imports.flatMap (file.packagesOf index)).eraseDups :=
  congrArg List.eraseDups (file.flatMap_links index modules (·.package.toList) fun _ _ => rfl)

theorem edges_eq :
    file.edges (file.links index modules) =
      (file.outline.imports.flatMap (file.edgesOf index modules)).eraseDups :=
  congrArg List.eraseDups (file.flatMap_links index modules
    (fun link => link.targets.map fun target => Edge.mk file.path target link.kind link.names)
    fun _ _ => rfl)

variable {index modules file}

theorem mem_modulesOf_iff {found : Import} {target : String} :
    target ∈ file.modulesOf index modules found ↔
      target ∈ (file.resolution index found).paths ∧ target ∈ modules := by
  simp [modulesOf]

theorem mem_packagesOf_iff {found : Import} {package : String} :
    package ∈ file.packagesOf index found ↔
      file.resolution index found = .external package := by
  rw [packagesOf, Option.mem_toList, Resolution.package?_eq_some_iff]

theorem mem_internalDeps_iff {target : String} :
    target ∈ (file.module (file.links index modules)).internalDeps ↔
      ∃ found ∈ file.outline.imports, target ∈ file.modulesOf index modules found := by
  rw [internalDeps_eq, List.mem_eraseDups, List.mem_flatMap]

theorem mem_externalDeps_iff {package : String} :
    package ∈ (file.module (file.links index modules)).externalDeps ↔
      ∃ found ∈ file.outline.imports, file.resolution index found = .external package := by
  simp only [externalDeps_eq, List.mem_eraseDups, List.mem_flatMap, mem_packagesOf_iff]

theorem source_of_mem_edges {edge : Edge}
    (member : edge ∈ file.edges (file.links index modules)) : edge.source = file.path := by
  rw [edges_eq, List.mem_eraseDups, List.mem_flatMap] at member
  obtain ⟨found, _, yielded⟩ := member
  obtain ⟨target, _, rfl⟩ := List.mem_map.mp yielded
  rfl

/-- An edge of a file leads to a target exactly when the file depends on it. -/
theorem exists_edge_iff {target : String} :
    (∃ edge ∈ file.edges (file.links index modules), edge.target = target) ↔
      target ∈ (file.module (file.links index modules)).internalDeps ∨
        target ∈ (file.module (file.links index modules)).externalDeps := by
  simp only [edges_eq, internalDeps_eq, externalDeps_eq, List.mem_eraseDups, List.mem_flatMap]
  rw [← exists_or]
  constructor
  · intro edge
    obtain ⟨edge, ⟨found, imported, yielded⟩, rfl⟩ := edge
    obtain ⟨target, led, rfl⟩ := List.mem_map.mp yielded
    refine ⟨found, ?_⟩
    rcases List.mem_append.mp led with internal | external
    · exact .inl ⟨imported, internal⟩
    · exact .inr ⟨imported, external⟩
  · intro depends
    rcases depends with ⟨found, ⟨imported, internal⟩ | ⟨imported, external⟩⟩
    · exact ⟨_, ⟨found, imported, List.mem_map_of_mem (List.mem_append_left _ internal)⟩, rfl⟩
    · exact ⟨_, ⟨found, imported, List.mem_map_of_mem (List.mem_append_right _ external)⟩, rfl⟩

theorem path_not_mem_internalDeps :
    file.path ∉ (file.module (file.links index modules)).internalDeps := by
  intro member
  obtain ⟨found, _, led⟩ := mem_internalDeps_iff.mp member
  exact found.importer_not_mem_paths _ _ _ (mem_modulesOf_iff.mp led).1

theorem mem_modules_of_mem_internalDeps {target : String}
    (member : target ∈ (file.module (file.links index modules)).internalDeps) :
    target ∈ modules := by
  obtain ⟨found, _, led⟩ := mem_internalDeps_iff.mp member
  exact (mem_modulesOf_iff.mp led).2

theorem nodup_internalDeps : (file.module (file.links index modules)).internalDeps.Nodup :=
  nodup_eraseDups _

theorem nodup_externalDeps : (file.module (file.links index modules)).externalDeps.Nodup :=
  nodup_eraseDups _

theorem nodup_edges : (file.edges (file.links index modules)).Nodup :=
  nodup_eraseDups _

/-- The edges of a file stand in the order of the imports that first yield them. -/
theorem edges_inImportOrder :
    (file.edges (file.links index modules)).Pairwise fun first second =>
      file.outline.imports.findIdx (fun found =>
          (file.edgesOf index modules found).contains first) ≤
        file.outline.imports.findIdx (fun found =>
          (file.edgesOf index modules found).contains second) := by
  rw [edges_eq]
  exact (pairwise_idxOf_eraseDups _).imp fun below => findIdx_le_of_idxOf_flatMap_lt _ below

end ReadFile

end CodeAtlas
