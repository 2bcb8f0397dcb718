import CodeAtlas.Proofs.Extraction
import CodeAtlas.Transplant

/-!
# Planned transplants

A plan answers for everything that a feature brings along.  Each interface of its primary module
stays behind, goes to the first interface of the target that has its name but for letter case, or
is created; and each package that a component needs is in the target already or gets one task.
-/

namespace CodeAtlas

namespace Graph

variable {graph target : Graph} {name package : String} {location : Location}

/-! ## Namesakes -/

/-- Whether an interface has a name but for letter case. -/
def IsNamesake (name : String) (interface : Interface) : Prop :=
  Text.lowercase interface.name = Text.lowercase name

/-- Whether some module has an interface with a name but for letter case. -/
def HasNamesake (graph : Graph) (name : String) : Prop :=
  ∃ path module, graph.module? path = some module ∧
    ∃ interface ∈ module.interfaces, IsNamesake name interface

/-- A location has a name but for letter case, and no interface of a module with a smaller path or
before it in its own module has it. -/
def IsFirstNamesake (graph : Graph) (name : String) (location : Location) : Prop :=
  ∃ module before after, graph.module? location.module = some module ∧
    module.interfaces = before ++ location.interface :: after ∧
    IsNamesake name location.interface ∧
    (∀ interface ∈ before, ¬IsNamesake name interface) ∧
    ∀ path other, path < location.module → graph.module? path = some other →
      ∀ interface ∈ other.interfaces, ¬IsNamesake name interface

/-- Every module is stored under its own path. -/
def IsOwned (graph : Graph) : Prop :=
  ∀ path module, graph.module? path = some module → module.path = path

/-- What the index holds of a name is what it held before, and then the interfaces with the name in
their order. -/
theorem get?_foldl_index (name : String) (locations : List Location)
    (index : Keyed (List Location)) :
    ((locations.foldl (fun index location =>
        let name := Text.lowercase location.interface.name
        index.insert name ((index.get? name).getD [] ++ [location])) index).get? name).getD [] =
      (index.get? name).getD [] ++
        locations.filter (fun location => Text.lowercase location.interface.name == name) := by
  induction locations generalizing index with
  | nil => simp
  | cons location rest induction =>
      rw [List.foldl_cons, induction, Keyed.get?_insert]
      by_cases same : name = Text.lowercase location.interface.name
      · simp [same]
      · simp [same, Ne.symm same]

theorem get?_interfaceIndex (graph : Graph) (name : String) :
    (graph.interfaceIndex.get? name).bind List.head? =
      graph.locations.find? (fun location => Text.lowercase location.interface.name == name) := by
  have bucket : (graph.interfaceIndex.get? name).getD [] =
      graph.locations.filter (fun location => Text.lowercase location.interface.name == name) :=
    get?_foldl_index name graph.locations .empty
  rw [← List.head?_filter, ← bucket]
  cases graph.interfaceIndex.get? name <;> rfl

theorem map_path_values (owned : graph.IsOwned) :
    graph.modules.values.map (·.path) = graph.modules.keys := by
  rw [Keyed.values, Keyed.keys, List.map_map]
  refine List.map_congr_left fun entry member => ?_
  exact owned entry.1 entry.2 (Keyed.get?_eq_some_iff.mpr member)

theorem pairwise_path_values (owned : graph.IsOwned) :
    graph.modules.values.Pairwise fun first second => first.path < second.path :=
  List.pairwise_map.mp (map_path_values owned ▸ graph.modules.pairwise_keys)

theorem module?_path_of_mem_values (owned : graph.IsOwned) {module : Module}
    (member : module ∈ graph.modules.values) : graph.module? module.path = some module := by
  obtain ⟨path, found⟩ := Keyed.mem_values_iff.mp member
  exact (owned path module found).symm ▸ found

/-- A module with a smaller path stands before one of the values. -/
theorem mem_before_of_path_lt (owned : graph.IsOwned) {before after : List Module}
    {module other : Module} (split : graph.modules.values = before ++ module :: after)
    (member : other ∈ graph.modules.values) (smaller : other.path < module.path) :
    other ∈ before := by
  have ascending := pairwise_path_values owned
  rw [split] at ascending member
  have following := (List.pairwise_cons.mp (List.pairwise_append.mp ascending).2.1).1
  rcases List.mem_append.mp member with earlier | inside
  · exact earlier
  rcases List.mem_cons.mp inside with rfl | later
  · exact absurd smaller (String.lt_irrefl _)
  · exact absurd (String.lt_trans smaller (following other later)) (String.lt_irrefl _)

theorem isFirstNamesake_of_find? (owned : graph.IsOwned)
    (found : graph.locations.find? (fun location =>
      Text.lowercase location.interface.name == Text.lowercase name) = some location) :
    graph.IsFirstNamesake name location := by
  rw [locations, List.find?_flatMap, List.findSome?_eq_some_iff] at found
  obtain ⟨before, module, after, split, found, none⟩ := found
  rw [List.find?_map, Option.map_eq_some_iff] at found
  obtain ⟨interface, found, rfl⟩ := found
  obtain ⟨same, earlier, later, interfaces, others⟩ := List.find?_eq_some_iff_append.mp found
  refine ⟨module, earlier, later,
    module?_path_of_mem_values owned (split ▸ List.mem_append_right _ List.mem_cons_self),
    interfaces, eq_of_beq same, ?inModule, ?inSmaller⟩
  case inModule =>
    intro interface member
    simpa [IsNamesake] using others interface member
  case inSmaller =>
    intro path other smaller isOther interface member
    have isPath := owned path other isOther
    have earlier := none other (mem_before_of_path_lt owned split
      (Keyed.mem_values_iff.mpr ⟨path, isOther⟩) (isPath.symm ▸ smaller))
    rw [List.find?_map, Option.map_eq_none_iff, List.find?_eq_none] at earlier
    simpa [IsNamesake] using earlier interface member

theorem IsFirstNamesake.hasNamesake (first : graph.IsFirstNamesake name location) :
    graph.HasNamesake name := by
  obtain ⟨module, before, after, isModule, interfaces, same, -⟩ := first
  exact ⟨_, module, isModule, location.interface,
    interfaces ▸ List.mem_append_right _ List.mem_cons_self, same⟩

theorem find?_eq_none_iff_not_hasNamesake :
    graph.locations.find? (fun location =>
      Text.lowercase location.interface.name == Text.lowercase name) = none ↔
        ¬graph.HasNamesake name := by
  simp only [List.find?_eq_none, locations, List.mem_flatMap, List.mem_map, Keyed.mem_values_iff,
    HasNamesake, IsNamesake, beq_iff_eq]
  constructor
  · rintro none ⟨path, module, isModule, interface, member, same⟩
    exact none ⟨module.path, interface⟩ ⟨module, ⟨path, isModule⟩, interface, member, rfl⟩ same
  · rintro none _ ⟨module, ⟨path, isModule⟩, interface, member, rfl⟩ same
    exact none ⟨path, module, isModule, interface, member, same⟩

/-! ## Packages -/

/-- Whether some module uses an external package. -/
def UsesPackage (graph : Graph) (package : String) : Prop :=
  ∃ path module, graph.module? path = some module ∧ package ∈ module.externalDeps

theorem mem_externalPackages_iff :
    package ∈ graph.externalPackages ↔ graph.UsesPackage package := by
  simp only [externalPackages, Keyed.mem_keys_ofList, List.map_map, List.mem_map,
    List.mem_flatMap, Keyed.mem_values_iff, UsesPackage, Function.comp_apply, exists_eq_right]
  constructor
  · rintro ⟨module, ⟨path, isModule⟩, member⟩
    exact ⟨path, module, isModule, member⟩
  · rintro ⟨path, module, isModule, member⟩
    exact ⟨module, ⟨path, isModule⟩, member⟩

end Graph

namespace Feature

variable {graph target : Graph} {feature : Feature} {provided : ProvidedInterface}
  {name package project : String}

/-! ## Mappings -/

/-- Where an interface of a feature goes in a target. -/
structure Lands (target : Graph) (feature : Feature) (name : String) (mapping : Mapping) :
    Prop where
  sourceInterface : mapping.sourceInterface = name
  sourceModule : mapping.sourceModule = feature.primary
  skip_iff : mapping.action = .skip ↔ name.toList.head? = some '_'
  adapt_iff : mapping.action = .adapt ↔ name.toList.head? ≠ some '_' ∧ target.HasNamesake name
  create_iff : mapping.action = .create ↔ name.toList.head? ≠ some '_' ∧ ¬target.HasNamesake name
  skipped : mapping.action = .skip →
    mapping.targetInterface = none ∧ mapping.targetModule = none
  adapted : mapping.action = .adapt → ∃ location, target.IsFirstNamesake name location ∧
    mapping.targetInterface = some location.interface.name ∧
    mapping.targetModule = some location.module
  created : mapping.action = .create → mapping.targetInterface = none ∧
    mapping.targetModule = some (Path.basename feature.primary)

theorem startsWith_underscore_iff : name.startsWith "_" = true ↔ name.toList.head? = some '_' := by
  rw [String.startsWith_string_iff]
  cases name.toList <;> simp [List.cons_prefix_cons, eq_comm]

theorem lands_mapInterface (owned : target.IsOwned) (feature : Feature)
    (provided : ProvidedInterface) :
    feature.Lands target provided.name
      (feature.mapInterface target.interfaceIndex provided) := by
  unfold mapInterface
  rw [Graph.get?_interfaceIndex]
  by_cases isPrivate : provided.name.toList.head? = some '_'
  · rw [if_pos (startsWith_underscore_iff.mpr isPrivate)]
    exact {
      sourceInterface := rfl
      sourceModule := rfl
      skip_iff := by simp [isPrivate]
      adapt_iff := by simp [isPrivate]
      create_iff := by simp [isPrivate]
      skipped := fun _ => ⟨rfl, rfl⟩
      adapted := nofun
      created := nofun }
  rw [if_neg (mt startsWith_underscore_iff.mp isPrivate)]
  cases found : target.locations.find? (fun location =>
      Text.lowercase location.interface.name == Text.lowercase provided.name) with
  | none =>
      have none := Graph.find?_eq_none_iff_not_hasNamesake.mp found
      exact {
        sourceInterface := rfl
        sourceModule := rfl
        skip_iff := by simp [isPrivate]
        adapt_iff := by simp [none]
        create_iff := by simp [isPrivate, none]
        skipped := nofun
        adapted := nofun
        created := fun _ => ⟨rfl, rfl⟩ }
  | some location =>
      have first := Graph.isFirstNamesake_of_find? owned found
      exact {
        sourceInterface := rfl
        sourceModule := rfl
        skip_iff := by simp [isPrivate]
        adapt_iff := by simp [isPrivate, first.hasNamesake]
        create_iff := by simp [first.hasNamesake]
        skipped := nofun
        adapted := fun _ => ⟨location, first, rfl, rfl⟩
        created := nofun }

/-! ## Plans -/

/-- A plan of landing a feature of a graph in a target leaves nothing out. -/
structure IsPlanned (graph target : Graph) (feature : Feature) (plan : TransplantPlan) : Prop where
  mappings : ∃ module, graph.module? feature.primary = some module ∧
    List.Forall₂ (fun interface mapping => feature.Lands target interface.name mapping)
      module.interfaces plan.mappings
  /-- What a component needs is there or is added once. -/
  wired : ∀ package ∈ graph.uses feature.components,
    target.UsesPackage package ∨ plan.wiring.countP (·.package == package) = 1
  needed : ∀ task ∈ plan.wiring,
    ¬target.UsesPackage task.package ∧ task.package ∈ graph.uses feature.components
  generationOrder : plan.generationOrder = feature.components
  ordering : plan.ordering = feature.ordering

/-- A module with two public interfaces and a private one that uses two packages. -/
def clientModule : Module :=
  ⟨"svc/client.py", .python, 9, "",
    [⟨"Fetch", .function, "", "", [], 1⟩, ⟨"_retry", .function, "", "", [], 4⟩,
      ⟨"close", .function, "", "", [], 7⟩], [], ["requests", "numpy"]⟩

def clientGraph : Graph where
  project := "client"
  version := Graph.documentVersion
  indexedAt := default
  modules := .ofList [(clientModule.path, clientModule)]
  edges := []

def clientDisk : Disk :=
  ⟨.ofList [("svc", .directory), (clientModule.path, .file "import numpy\n".toUTF8 default)], []⟩

/-- A module of another project with an interface and a package of the same names. -/
def loaderModule : Module :=
  ⟨"core/load.py", .python, 3, "", [⟨"FETCH", .function, "", "", [], 1⟩], [], ["numpy"]⟩

def loaderGraph : Graph :=
  { clientGraph with
    project := "loader"
    modules := .ofList [(loaderModule.path, loaderModule)] }

theorem reaches_clientGraph {path : String} (reaches : clientGraph.Reaches clientModule.path path) :
    path = clientModule.path := by
  rcases Relation.ReflTransGen.cases_tail reaches with same | ⟨middle, _, leads⟩
  · exact same
  · simp [Graph.Leads, clientGraph] at leads

end Feature

end CodeAtlas
