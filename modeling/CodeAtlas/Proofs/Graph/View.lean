import CodeAtlas.Proofs.Graph.Impact
import Mathlib.Data.Set.Card

/-!
# The relation that a view shows

The numbers of a view are the places of the modules, and its links are the pairs of different
modules with an edge from one to the other.  So looking up dependencies and dependents shows one
relation from both sides, which is that of the edges.
-/

namespace CodeAtlas.Graph

namespace View

variable {view : View} {paths more : List String} {path other : String} {edges : List Edge}
  {edge : Edge}

/-! ## Numbers -/

/-- The numbers of a view are the places of some modules. -/
structure IsNumbered (paths : List String) (view : View) : Prop where
  nodes : view.nodes = paths
  get?_index_iff : ∀ path number,
    view.index.get? path = some number ↔ paths[number]? = some path

/-- Different modules have different numbers. -/
theorem IsNumbered.eq_of_get?_index (numbered : IsNumbered paths view) {number : Nat}
    (first : view.index.get? path = some number) (second : view.index.get? other = some number) :
    path = other := by
  rw [numbered.get?_index_iff] at first second
  exact Option.some.inj (first.symm.trans second)

theorem isNumbered_empty : IsNumbered [] empty := ⟨rfl, by simp [empty]⟩

theorem IsNumbered.addNode (numbered : IsNumbered paths view) (fresh : path ∉ paths) :
    IsNumbered (paths ++ [path]) (view.addNode path) := by
  refine ⟨by rw [View.addNode, numbered.nodes], fun other number => ?_⟩
  rw [View.addNode, Keyed.get?_insert, numbered.nodes, List.getElem?_append]
  by_cases same : other = path
  · subst same
    grind
  · have known := numbered.get?_index_iff other number
    grind

theorem IsNumbered.addNodes (numbered : IsNumbered paths view) (distinct : (paths ++ more).Nodup) :
    IsNumbered (paths ++ more) (more.foldl View.addNode view) := by
  induction more generalizing paths view with
  | nil => rwa [List.append_nil]
  | cons path more induction =>
      rw [List.append_cons] at distinct ⊢
      have fresh : path ∉ paths := by
        have apart := (List.nodup_append.mp (List.nodup_append.mp distinct).1).2.2
        exact fun member => apart path member path List.mem_cons_self rfl
      exact induction (numbered.addNode fresh) distinct

/-! ## Links -/

/-- The links of a view are the pairs of different numbers that edges have. -/
structure IsLinked (edges : List Edge) (view : View) : Prop where
  nodup : view.links.Nodup
  mem_links_iff : ∀ source target, (source, target) ∈ view.links ↔
    source ≠ target ∧ ∃ edge ∈ edges,
      view.index.get? edge.source = some source ∧ view.index.get? edge.target = some target

@[simp]
theorem nodes_link (source target : Nat) : (view.link source target).nodes = view.nodes := by
  rw [link]
  split <;> rfl

@[simp]
theorem index_link (source target : Nat) : (view.link source target).index = view.index := by
  rw [link]
  split <;> rfl

theorem nodup_link {source target : Nat} (nodup : view.links.Nodup) :
    (view.link source target).links.Nodup := by
  rw [link]
  split
  next => exact nodup
  next absent => exact List.nodup_cons.mpr ⟨absent, nodup⟩

theorem mem_links_link {source target : Nat} {pair : Nat × Nat} :
    pair ∈ (view.link source target).links ↔ pair = (source, target) ∨ pair ∈ view.links := by
  rw [link]
  split
  next known =>
    refine ⟨.inr, fun either => ?_⟩
    rcases either with rfl | member
    · exact known
    · exact member
  next => exact List.mem_cons

@[simp]
theorem nodes_addEdge (edge : Edge) : (view.addEdge edge).nodes = view.nodes := by
  rw [addEdge]
  split
  · split <;> simp
  · rfl

@[simp]
theorem index_addEdge (edge : Edge) : (view.addEdge edge).index = view.index := by
  rw [addEdge]
  split
  · split <;> simp
  · rfl

/-- An edge adds the pair of its numbers if they are different, and no other pair. -/
theorem mem_links_addEdge {source target : Nat} :
    (source, target) ∈ (view.addEdge edge).links ↔ (source, target) ∈ view.links ∨
      source ≠ target ∧ view.index.get? edge.source = some source ∧
        view.index.get? edge.target = some target := by
  rw [addEdge]
  split
  next first second sourceFound targetFound =>
    rw [sourceFound, targetFound]
    split <;> grind [mem_links_link]
  next missing => grind

theorem nodup_addEdge (nodup : view.links.Nodup) : (view.addEdge edge).links.Nodup := by
  rw [addEdge]
  split
  · split
    · exact nodup
    · exact nodup_link nodup
  · exact nodup

theorem IsLinked.addEdge (linked : IsLinked edges view) (edge : Edge) :
    IsLinked (edges ++ [edge]) (view.addEdge edge) := by
  refine ⟨nodup_addEdge linked.nodup, fun source target => ?_⟩
  rw [mem_links_addEdge, linked.mem_links_iff, index_addEdge]
  simp only [List.mem_append, List.mem_singleton]
  grind

theorem IsLinked.addEdges (linked : IsLinked edges view) (later : List Edge) :
    IsLinked (edges ++ later) (later.foldl View.addEdge view) ∧
      (later.foldl View.addEdge view).nodes = view.nodes ∧
      (later.foldl View.addEdge view).index = view.index := by
  induction later generalizing edges view with
  | nil => exact ⟨by rwa [List.append_nil], rfl, rfl⟩
  | cons edge later induction =>
      obtain ⟨whole, nodes, index⟩ := induction (linked.addEdge edge)
      rw [List.append_cons, List.foldl_cons]
      exact ⟨whole, nodes.trans (nodes_addEdge edge), index.trans (index_addEdge edge)⟩

theorem isLinked_of_unlinked (unlinked : view.links = []) : IsLinked [] view := by
  refine ⟨by rw [unlinked]; exact .nil, fun source target => ?_⟩
  simp [unlinked]

theorem links_foldl_addNode (paths : List String) :
    (paths.foldl addNode view).links = view.links := by
  induction paths generalizing view with
  | nil => rfl
  | cons path paths induction => exact induction

/-! ## Neighbors -/

/-- A number is linked with another in a direction. -/
theorem mem_linked_iff {number linked : Nat} {direction : Direction} :
    linked ∈ view.linked number direction ↔
      match direction with
      | .outgoing => (number, linked) ∈ view.links
      | .incoming => (linked, number) ∈ view.links := by
  cases direction <;> simp [View.linked]

theorem IsNumbered.mem_neighbors_iff (numbered : IsNumbered paths view) {direction : Direction} :
    other ∈ view.neighbors path direction ↔
      ∃ number linked, view.index.get? path = some number ∧
        view.index.get? other = some linked ∧ linked ∈ view.linked number direction := by
  rw [neighbors]
  cases found : view.index.get? path with
  | none => simp
  | some number =>
      simp only [Keyed.mem_keys_ofList, List.map_map, List.mem_map, List.mem_filterMap,
        Function.comp_apply, exists_eq_right, Option.some.injEq, numbered.nodes,
        ← numbered.get?_index_iff]
      grind

theorem pairwise_neighbors (view : View) (path : String) (direction : Direction) :
    (view.neighbors path direction).Pairwise (· < ·) := by
  rw [neighbors]
  split
  · exact Keyed.pairwise_keys _
  · exact .nil

theorem neighbors_eq_nil {direction : Direction} (unknown : view.index.get? path = none) :
    view.neighbors path direction = [] := by
  rw [neighbors, unknown]

end View

/-! ## The view of a graph -/

section OfGraph

variable {graph : Graph} {source target path : String}

/-- Before the edges there are no links. -/
theorem isLinked_nodes (graph : Graph) :
    View.IsLinked [] (graph.modules.keys.foldl View.addNode .empty) :=
  View.isLinked_of_unlinked (View.links_foldl_addNode _)

theorem isNumbered_view (graph : Graph) : View.IsNumbered graph.modules.keys graph.view := by
  have nodes : View.IsNumbered graph.modules.keys
      (graph.modules.keys.foldl View.addNode .empty) :=
    View.isNumbered_empty.addNodes graph.modules.nodup_keys
  obtain ⟨-, sameNodes, sameIndex⟩ := (isLinked_nodes graph).addEdges graph.internalEdges
  exact ⟨sameNodes.trans nodes.nodes, sameIndex ▸ nodes.get?_index_iff⟩

theorem isLinked_view (graph : Graph) : View.IsLinked graph.internalEdges graph.view :=
  ((isLinked_nodes graph).addEdges graph.internalEdges).1

theorem exists_number_iff : (∃ number, graph.view.index.get? path = some number) ↔
    path ∈ graph.modules.keys := by
  simp only [(isNumbered_view graph).get?_index_iff, List.mem_iff_getElem?]

/-- Two modules are linked when they are different and an edge leads from one to the other. -/
theorem mem_links_view_iff {first second : Nat}
    (sourceFound : graph.view.index.get? source = some first)
    (targetFound : graph.view.index.get? target = some second) :
    (first, second) ∈ graph.view.links ↔ source ≠ target ∧ graph.Leads source target := by
  have numbered := isNumbered_view graph
  rw [(isLinked_view graph).mem_links_iff]
  constructor
  · rintro ⟨different, edge, member, fromSource, toTarget⟩
    obtain ⟨within, -⟩ := List.mem_filter.mp member
    have sameSource := numbered.eq_of_get?_index fromSource sourceFound
    have sameTarget := numbered.eq_of_get?_index toTarget targetFound
    refine ⟨?_, contains_iff_mem_keys.mpr (exists_number_iff.mp ⟨first, sourceFound⟩),
      contains_iff_mem_keys.mpr (exists_number_iff.mp ⟨second, targetFound⟩),
      edge, within, sameSource, sameTarget⟩
    rintro rfl
    exact different (Option.some.inj (sourceFound.symm.trans targetFound))
  · rintro ⟨different, -, known, edge, within, rfl, rfl⟩
    refine ⟨?_, edge, List.mem_filter.mpr ⟨within, known⟩, sourceFound, targetFound⟩
    rintro rfl
    exact different (numbered.eq_of_get?_index sourceFound targetFound)

/-- Different modules with an edge from the first to the second. -/
def Joins (graph : Graph) (source target : String) : Prop :=
  source ≠ target ∧ graph.Leads source target

theorem Joins.exists_numbers (joins : graph.Joins source target) :
    ∃ first second, graph.view.index.get? source = some first ∧
      graph.view.index.get? target = some second := by
  obtain ⟨-, known, targetKnown, -⟩ := joins
  obtain ⟨first, sourceFound⟩ := exists_number_iff.mpr (contains_iff_mem_keys.mp known)
  obtain ⟨second, targetFound⟩ := exists_number_iff.mpr (contains_iff_mem_keys.mp targetKnown)
  exact ⟨first, second, sourceFound, targetFound⟩

theorem mem_dependencies_view_iff :
    target ∈ graph.view.dependencies source ↔ graph.Joins source target := by
  rw [View.dependencies, (isNumbered_view graph).mem_neighbors_iff]
  constructor
  · rintro ⟨first, second, sourceFound, targetFound, linked⟩
    exact (mem_links_view_iff sourceFound targetFound).mp (View.mem_linked_iff.mp linked)
  · intro joins
    obtain ⟨first, second, sourceFound, targetFound⟩ := joins.exists_numbers
    exact ⟨first, second, sourceFound, targetFound,
      View.mem_linked_iff.mpr ((mem_links_view_iff sourceFound targetFound).mpr joins)⟩

theorem mem_dependents_view_iff :
    source ∈ graph.view.dependents target ↔ graph.Joins source target := by
  rw [View.dependents, (isNumbered_view graph).mem_neighbors_iff]
  constructor
  · rintro ⟨second, first, targetFound, sourceFound, linked⟩
    exact (mem_links_view_iff sourceFound targetFound).mp (View.mem_linked_iff.mp linked)
  · intro joins
    obtain ⟨first, second, sourceFound, targetFound⟩ := joins.exists_numbers
    exact ⟨second, first, targetFound, sourceFound,
      View.mem_linked_iff.mpr ((mem_links_view_iff sourceFound targetFound).mpr joins)⟩

/-- The links are as many as the pairs of modules that edges join. -/
theorem encard_joins : {pair : String × String | graph.Joins pair.1 pair.2}.encard =
    graph.view.edgeCount := by
  have numbered := isNumbered_view graph
  let number (path : String) : Nat := (graph.view.index.get? path).getD 0
  have numberOf {path : String} {value : Nat} (found : graph.view.index.get? path = some value) :
      number path = value := by
    simp only [number, found, Option.getD_some]
  have injective : Set.InjOn (Prod.map number number)
      {pair : String × String | graph.Joins pair.1 pair.2} := by
    rintro ⟨source, target⟩ joins ⟨otherSource, otherTarget⟩ otherJoins same
    obtain ⟨first, second, sourceFound, targetFound⟩ := Joins.exists_numbers joins
    obtain ⟨third, fourth, otherFound, otherTargetFound⟩ := Joins.exists_numbers otherJoins
    simp only [Prod.map_apply, numberOf sourceFound, numberOf targetFound, numberOf otherFound,
      numberOf otherTargetFound, Prod.mk.injEq] at same
    obtain ⟨rfl, rfl⟩ := same
    exact Prod.ext (numbered.eq_of_get?_index sourceFound otherFound)
      (numbered.eq_of_get?_index targetFound otherTargetFound)
  have image : Prod.map number number '' {pair : String × String | graph.Joins pair.1 pair.2} =
      {link | link ∈ graph.view.links} := by
    ext ⟨first, second⟩
    constructor
    · rintro ⟨⟨source, target⟩, joins, same⟩
      obtain ⟨firstHere, secondHere, sourceFound, targetFound⟩ := Joins.exists_numbers joins
      simp only [Prod.map_apply, numberOf sourceFound, numberOf targetFound, Prod.mk.injEq] at same
      obtain ⟨rfl, rfl⟩ := same
      exact (mem_links_view_iff sourceFound targetFound).mpr joins
    · intro linked
      obtain ⟨-, edge, -, sourceFound, targetFound⟩ :=
        ((isLinked_view graph).mem_links_iff first second).mp linked
      have joins := (mem_links_view_iff sourceFound targetFound).mp linked
      refine ⟨(edge.source, edge.target), joins, ?_⟩
      rw [Prod.map_apply, numberOf sourceFound, numberOf targetFound]
  have finite : {link | link ∈ graph.view.links} = (graph.view.links.toFinset : Set (ℕ × ℕ)) := by
    ext link
    simp
  rw [← injective.encard_image, image, finite, Set.encard_coe_eq_coe_finsetCard,
    List.toFinset_card_of_nodup (isLinked_view graph).nodup, View.edgeCount]

/-! The listings from which closures, orders and impacts are computed are those of the view. -/

theorem dependencies_view (graph : Graph) (path : String) :
    graph.view.dependencies path = graph.dependencies path := by
  have ascending : (graph.dependencies path).Pairwise (· < ·) := by
    unfold dependencies
    dsimp only
    split
    · exact graph.modules.pairwise_keys.filter _
    · exact .nil
  refine eq_of_ascending (View.pairwise_neighbors ..) ascending fun target => ?_
  rw [mem_dependencies_view_iff, Joins, and_comm, ne_comm]
  exact depends_iff.symm

theorem dependents_view (graph : Graph) (path : String) :
    graph.view.dependents path = graph.dependents path := by
  refine eq_of_ascending (View.pairwise_neighbors ..) (graph.pairwise_dependents path)
    fun source => ?_
  rw [mem_dependents_view_iff, Joins, and_comm, ne_comm, mem_dependents_iff]
  exact depends_iff.symm

end OfGraph

/-- What a view shows is the relation of the edges between different modules, from both sides, in
ascending order and counted once for each pair. -/
structure View.IsRelationOf (graph : Graph) (view : View) : Prop where
  contains_iff : ∀ path, view.contains path = true ↔ path ∈ graph.modules.keys
  mem_dependencies_iff : ∀ source target, target ∈ view.dependencies source ↔
    source ≠ target ∧ graph.Leads source target
  mem_dependents_iff : ∀ source target, source ∈ view.dependents target ↔
    source ≠ target ∧ graph.Leads source target
  dependenciesAscending : ∀ path, (view.dependencies path).Pairwise (· < ·)
  dependentsAscending : ∀ path, (view.dependents path).Pairwise (· < ·)
  edgeCount : {pair : String × String |
    pair.1 ≠ pair.2 ∧ graph.Leads pair.1 pair.2}.encard = view.edgeCount
  unknown : ∀ path, path ∉ graph.modules.keys →
    view.dependencies path = [] ∧ view.dependents path = []

/-- The view of a graph shows the relation of its edges. -/
theorem view_isRelationOf (graph : Graph) : graph.view.IsRelationOf graph where
  contains_iff path := Option.isSome_iff_exists.trans exists_number_iff
  mem_dependencies_iff _ _ := mem_dependencies_view_iff
  mem_dependents_iff _ _ := mem_dependents_view_iff
  dependenciesAscending path := graph.view.pairwise_neighbors path .outgoing
  dependentsAscending path := graph.view.pairwise_neighbors path .incoming
  edgeCount := encard_joins
  unknown path unknown := by
    have missing : graph.view.index.get? path = none := by
      rw [Option.eq_none_iff_forall_ne_some]
      exact fun number found => unknown (exists_number_iff.mp ⟨number, found⟩)
    exact ⟨View.neighbors_eq_nil missing, View.neighbors_eq_nil missing⟩

end CodeAtlas.Graph
