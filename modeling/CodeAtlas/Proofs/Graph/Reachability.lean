import CodeAtlas.Extraction
import CodeAtlas.Proofs.Keyed
import Mathlib.Logic.Relation

/-!
# Reachability in dependency graphs

Following edges between modules is a relation of its own, defined without the listings of
dependencies.  The breadth-first closure of a module is exactly what it reaches.
-/

namespace CodeAtlas.Graph

/-- An edge leads from one module to another, or to the module itself. -/
def Leads (graph : Graph) (source target : String) : Prop :=
  graph.contains source = true ∧ graph.contains target = true ∧
    ∃ edge ∈ graph.edges, edge.source = source ∧ edge.target = target

/-- A module is reached over edges between modules; every module reaches itself. -/
abbrev Reaches (graph : Graph) : String → String → Prop :=
  Relation.ReflTransGen graph.Leads

/-- A cycle through at least two modules is reached. -/
def ReachesCycle (graph : Graph) (path : String) : Prop :=
  ∃ first second, first ≠ second ∧ graph.Reaches path first ∧
    graph.Reaches first second ∧ graph.Reaches second first

/-- The dependency relation that the listings of dependencies show. -/
def Depends (graph : Graph) (source target : String) : Prop :=
  target ∈ graph.dependencies source

@[simp] theorem contains_iff_mem_keys {graph : Graph} {path : String} :
    graph.contains path = true ↔ path ∈ graph.modules.keys :=
  Keyed.contains_iff_mem_keys

theorem depends_iff {graph : Graph} {source target : String} :
    graph.Depends source target ↔ graph.Leads source target ∧ target ≠ source := by
  simp only [Depends, mem_dependencies_iff, Leads, contains_iff_mem_keys]
  constructor
  · intro listed
    obtain ⟨known, targetKnown, different, edge⟩ := listed
    exact ⟨⟨known, targetKnown, edge⟩, different⟩
  · intro depends
    obtain ⟨⟨known, targetKnown, edge⟩, different⟩ := depends
    exact ⟨known, targetKnown, different, edge⟩

theorem Depends.mem_keys {graph : Graph} {source target : String}
    (depends : graph.Depends source target) : target ∈ graph.modules.keys :=
  (mem_dependencies_iff.mp depends).2.1

/-- Self edges do not matter for what is reached. -/
theorem reaches_iff_depends {graph : Graph} {source target : String} :
    graph.Reaches source target ↔ Relation.ReflTransGen graph.Depends source target := by
  constructor
  · intro reaches
    induction reaches with
    | refl => exact .refl
    | @tail middle last _ leads induction =>
        by_cases same : last = middle
        · exact same ▸ induction
        · exact induction.tail (depends_iff.mpr ⟨leads, same⟩)
  · intro reaches
    exact Relation.ReflTransGen.mono (fun _ _ depends => (depends_iff.mp depends).1) _ _ reaches

/-- A cycle through two modules is a way from a module back to itself that has a step. -/
theorem reachesCycle_iff {graph : Graph} {path : String} :
    graph.ReachesCycle path ↔
      ∃ node, Relation.ReflTransGen graph.Depends path node ∧
        Relation.TransGen graph.Depends node node := by
  constructor
  · intro cycle
    obtain ⟨first, second, different, reaches, there, back⟩ := cycle
    rw [reaches_iff_depends] at reaches there back
    refine ⟨first, reaches, ?_⟩
    rcases Relation.reflTransGen_iff_eq_or_transGen.mp there with same | way
    · exact absurd same.symm different
    · exact way.trans_left back
  · intro cycle
    obtain ⟨node, reaches, cycle⟩ := cycle
    obtain ⟨next, step, back⟩ := Relation.TransGen.head'_iff.mp cycle
    have different : node ≠ next := (depends_iff.mp step).2.symm
    exact ⟨node, next, different, reaches_iff_depends.mpr reaches,
      .single (depends_iff.mp step).1, reaches_iff_depends.mpr back⟩

/-! ## The breadth-first closure -/

/-- Everything found is reached from the queue. -/
theorem reaches_of_mem_discover {graph : Graph} {unseen queue : List String} {path : String}
    (found : path ∈ graph.discover unseen queue) :
    ∃ start ∈ queue, Relation.ReflTransGen graph.Depends start path := by
  induction unseen, queue using discover.induct graph with
  | case1 unseen => simp [discover] at found
  | case2 unseen node waiting isTarget induction =>
      rw [discover] at found
      rcases List.mem_cons.mp found with same | later
      · exact ⟨node, List.mem_cons_self, same ▸ .refl⟩
      · obtain ⟨start, member, reaches⟩ := induction later
        rcases List.mem_append.mp member with queued | new
        · exact ⟨start, List.mem_cons_of_mem _ queued, reaches⟩
        · have depends : graph.Depends node start := by
            rw [List.partition_eq_filter_filter] at new
            simpa [isTarget, Depends] using (List.mem_filter.mp new).2
          exact ⟨node, List.mem_cons_self, reaches.head depends⟩

/-- Nothing in the queue is lost. -/
theorem mem_discover_of_queued {graph : Graph} {unseen queue : List String} {path : String}
    (queued : path ∈ queue) : path ∈ graph.discover unseen queue := by
  induction unseen, queue using discover.induct graph with
  | case1 unseen => simp at queued
  | case2 unseen node waiting isTarget induction =>
      rw [discover]
      rcases List.mem_cons.mp queued with same | later
      · exact same ▸ List.mem_cons_self
      · exact List.mem_cons_of_mem _ (induction (List.mem_append_left _ later))

/-- What is found is closed under dependencies that were not found before. -/
theorem mem_discover_of_depends {graph : Graph} {unseen queue : List String}
    {path target : String} (found : path ∈ graph.discover unseen queue)
    (depends : graph.Depends path target) (new : target ∈ unseen) :
    target ∈ graph.discover unseen queue := by
  induction unseen, queue using discover.induct graph with
  | case1 unseen => simp [discover] at found
  | case2 unseen node waiting isTarget induction =>
      rw [discover] at found ⊢
      simp only [List.partition_eq_filter_filter] at found induction ⊢
      -- What `node` depends on is queued at once; the rest is found for a later module.
      by_cases fromNode : isTarget target = true
      · have queued : target ∈ waiting ++ unseen.filter isTarget :=
          List.mem_append_right _ (List.mem_filter.mpr ⟨new, fromNode⟩)
        exact List.mem_cons_of_mem _ (mem_discover_of_queued queued)
      · have remains : target ∈ unseen.filter (not ∘ isTarget) :=
          List.mem_filter.mpr ⟨new, by simpa using fromNode⟩
        rcases List.mem_cons.mp found with same | later
        · subst same
          exact absurd (by simpa [isTarget, Depends] using depends) fromNode
        · exact List.mem_cons_of_mem _ (induction later remains)

/-- Only what is queued or not yet found is found. -/
theorem mem_of_mem_discover {graph : Graph} {unseen queue : List String} {path : String}
    (found : path ∈ graph.discover unseen queue) : path ∈ queue ++ unseen := by
  induction unseen, queue using discover.induct graph with
  | case1 unseen => simp [discover] at found
  | case2 unseen node waiting isTarget induction =>
      rw [discover] at found
      rcases List.mem_cons.mp found with same | later
      · simp [same]
      · have member := induction later
        simp only [List.partition_eq_filter_filter, List.mem_append, List.mem_filter,
          List.mem_cons] at member ⊢
        rcases member with (queued | ⟨new, _⟩) | ⟨remains, _⟩
        · exact .inl (.inr queued)
        · exact .inr new
        · exact .inr remains

/-- Nothing is found twice. -/
theorem nodup_discover {graph : Graph} {unseen queue : List String}
    (distinct : (queue ++ unseen).Nodup) : (graph.discover unseen queue).Nodup := by
  induction unseen, queue using discover.induct graph with
  | case1 unseen => simp [discover]
  | case2 unseen node waiting isTarget induction =>
      have rearranged : (node :: (waiting ++ (unseen.partition isTarget).1 ++
          (unseen.partition isTarget).2)).Perm (node :: waiting ++ unseen) := by
        rw [List.partition_eq_filter_filter, List.append_assoc]
        exact ((List.filter_append_perm _ unseen).append_left waiting).cons node
      obtain ⟨absent, rest⟩ := List.nodup_cons.mp (rearranged.nodup_iff.mpr distinct)
      rw [discover]
      exact List.nodup_cons.mpr ⟨fun found => absent (mem_of_mem_discover found),
        induction rest⟩

theorem nodup_closure (graph : Graph) (path : String) : (graph.closure path).Nodup := by
  refine nodup_discover ?_
  rw [List.singleton_append, List.nodup_cons]
  exact ⟨by simp, graph.modules.nodup_keys.filter _⟩

theorem head?_closure (graph : Graph) (path : String) :
    (graph.closure path).head? = some path := by
  rw [closure, discover]
  rfl

/-- The closure of a module is what it reaches. -/
theorem mem_closure_iff {graph : Graph} {path other : String} :
    other ∈ graph.closure path ↔ graph.Reaches path other := by
  rw [reaches_iff_depends]
  constructor
  · intro found
    obtain ⟨start, queued, reaches⟩ := reaches_of_mem_discover found
    exact List.mem_singleton.mp queued ▸ reaches
  · intro reaches
    induction reaches with
    | refl => exact mem_discover_of_queued (List.mem_singleton.mpr rfl)
    | @tail middle last _ depends found =>
        by_cases same : last = path
        · exact same ▸ mem_discover_of_queued (List.mem_singleton.mpr rfl)
        · exact mem_discover_of_depends found depends
            (mem_unvisited.mpr ⟨depends.mem_keys, by simpa using same⟩)

end CodeAtlas.Graph
