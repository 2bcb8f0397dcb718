import CodeAtlas.Proofs.Graph.Placing
import CodeAtlas.Proofs.Graph.Reachability
import Mathlib.Data.Fintype.Card
import Mathlib.Data.Fintype.EquivFin
import Mathlib.Order.WellFounded

/-!
# Dependency-first orders of modules

Of some modules, those that reach no cycle among them are placed, and each stands after all of
its dependencies among them.  The others are appended in the order in which they were given.
-/

namespace CodeAtlas

/-- If every member of a finite list has a successor in the list, a cycle is reached from each
of them. -/
theorem reaches_cycle_of_blocked {relation : String → String → Prop} {paths : List String}
    (blocked : ∀ node ∈ paths, ∃ target, relation node target ∧ target ∈ paths)
    {node : String} (member : node ∈ paths) :
    ∃ other, Relation.ReflTransGen relation node other ∧
      Relation.TransGen relation other other := by
  by_contra acyclic
  -- Without a cycle, what `node` reaches is ordered by reachability.  The list is finite, so
  -- the order is well-founded, although every module has another one below it.
  let Reached := {other : {path // path ∈ paths} // Relation.ReflTransGen relation node other}
  let below : Reached → Reached → Prop := fun first second =>
    Relation.TransGen relation second.1.1 first.1.1
  have transitive : IsTrans Reached below :=
    ⟨fun _ _ _ firstBelow secondBelow => Relation.TransGen.trans secondBelow firstBelow⟩
  have irreflexive : Std.Irrefl below :=
    ⟨fun other cycle => acyclic ⟨other.1.1, other.2, cycle⟩⟩
  have wellFounded : WellFounded below := Finite.wellFounded_of_trans_of_irrefl below
  have impossible (reached : Reached) : False := by
    induction reached using wellFounded.induction with
    | _ reached induction =>
        obtain ⟨target, step, inside⟩ := blocked reached.1.1 reached.1.2
        exact induction ⟨⟨target, inside⟩, reached.2.tail step⟩ (.single step)
  exact impossible ⟨⟨node, member⟩, .refl⟩

namespace Ordering.Placed

variable {remaining : List String} {result : List String × List String}
  {dependenciesOf : String → List String}

/-- Whatever a placed module depends on, also through others, stands before it. -/
theorem mem_before (placed : Placed dependenciesOf remaining result)
    (inside : ∀ node, ∀ target ∈ dependenciesOf node, target ∈ remaining)
    {node target : String}
    (depends : Relation.TransGen (fun first second => second ∈ dependenciesOf first) node target)
    {before after : List String} (split : result.1 = before ++ node :: after) :
    target ∈ before := by
  induction depends using Relation.TransGen.head_induction_on generalizing before after with
  | single step =>
      exact placed.dependenciesFirst before _ after split _ step (inside _ _ step)
  | @head first second step _ induction =>
      have earlier := placed.dependenciesFirst before first after split _ step (inside _ _ step)
      obtain ⟨front, back, equality⟩ := List.append_of_mem earlier
      have laterSplit : result.1 = front ++ second :: (back ++ first :: after) := by
        rw [split, equality, List.append_assoc, List.cons_append]
      rw [equality]
      exact List.mem_append_left _ (induction laterSplit)

/-- No module that is reached from a placed one lies on a cycle. -/
theorem acyclic (placed : Placed dependenciesOf remaining result)
    (inside : ∀ node, ∀ target ∈ dependenciesOf node, target ∈ remaining)
    {node other : String} (member : node ∈ result.1)
    (reaches : Relation.ReflTransGen (fun first second => second ∈ dependenciesOf first)
      node other) :
    ¬Relation.TransGen (fun first second => second ∈ dependenciesOf first) other other := by
  intro cycle
  have otherMember : other ∈ result.1 := by
    rcases Relation.reflTransGen_iff_eq_or_transGen.mp reaches with same | way
    · exact same ▸ member
    · obtain ⟨before, after, split⟩ := List.append_of_mem member
      rw [split]
      exact List.mem_append_left _ (placed.mem_before inside way split)
  obtain ⟨before, after, split⟩ := List.append_of_mem otherMember
  -- A module on a cycle stands before itself.
  have earlier := placed.mem_before inside cycle split
  have distinct := placed.distinct
  rw [split, List.nodup_append] at distinct
  exact distinct.2.2 other earlier other List.mem_cons_self rfl

/-- Left over are exactly the modules that reach a cycle. -/
theorem mem_left_iff (placed : Placed dependenciesOf remaining result)
    (inside : ∀ node, ∀ target ∈ dependenciesOf node, target ∈ remaining) {node : String} :
    node ∈ result.2 ↔ node ∈ remaining ∧
      ∃ other, Relation.ReflTransGen (fun first second => second ∈ dependenciesOf first)
          node other ∧
        Relation.TransGen (fun first second => second ∈ dependenciesOf first) other other := by
  constructor
  · intro left
    refine ⟨?_, reaches_cycle_of_blocked placed.blocked left⟩
    rw [placed.left] at left
    exact (Graph.mem_unvisited.mp left).1
  · intro blocked
    obtain ⟨remains, other, reaches, cycle⟩ := blocked
    rw [placed.left, Graph.mem_unvisited]
    exact ⟨remains, fun member => placed.acyclic inside member reaches cycle⟩

/-- Modules are neither lost nor doubled. -/
theorem perm (placed : Placed dependenciesOf remaining result) (distinct : remaining.Nodup) :
    (result.1 ++ result.2).Perm remaining := by
  have leftDistinct : result.2.Nodup := placed.left ▸ distinct.filter _
  refine (List.perm_ext_iff_of_nodup ?_ distinct).mpr ?_
  · rw [List.nodup_append]
    refine ⟨placed.distinct, leftDistinct, ?_⟩
    intro first member second left same
    rw [placed.left] at left
    exact (Graph.mem_unvisited.mp left).2 (same ▸ member)
  · intro node
    rw [List.mem_append, placed.left, Graph.mem_unvisited]
    constructor
    · intro cases
      rcases cases with member | ⟨remains, _⟩
      · exact placed.within node member
      · exact remains
    · intro remains
      by_cases member : node ∈ result.1
      · exact .inl member
      · exact .inr ⟨remains, member⟩

end Ordering.Placed

namespace Graph

theorem mem_dependenciesWithin {graph : Graph} {subset : List String} {path target : String} :
    target ∈ graph.dependenciesWithin subset path ↔
      graph.Depends path target ∧ target ∈ subset := by
  simp only [dependenciesWithin, List.mem_filter, Bool.and_eq_true, List.contains_iff_mem,
    bne_iff_ne]
  constructor
  · intro known
    obtain ⟨depends, member, _⟩ := known
    exact ⟨depends, member⟩
  · intro known
    obtain ⟨depends, member⟩ := known
    exact ⟨depends, member, (depends_iff.mp depends).2⟩

theorem nodup_dependencies (graph : Graph) (path : String) :
    (graph.dependencies path).Nodup := by
  rw [dependencies]
  split
  · exact graph.modules.nodup_keys.filter _
  · exact .nil

theorem lookup_map_self {α : Type} (value : String → α) {paths : List String} {path : String}
    (member : path ∈ paths) :
    (paths.map fun other => (other, value other)).lookup path = some (value path) := by
  have found : (paths.find? (· == path)).isSome = true :=
    List.find?_isSome.mpr ⟨path, member, beq_self_eq_true path⟩
  obtain ⟨other, first⟩ := Option.isSome_iff_exists.mp found
  have same : other = path := by simpa using List.find?_some first
  have looked := Keyed.lookup_map id value paths path
  simp only [id, first, same] at looked
  exact looked

/-- The modules of a list that depend on a module. -/
def dependentsWithin (graph : Graph) (subset : List String) (node : String) : List String :=
  subset.filter fun path => (graph.dependenciesWithin subset path).contains node

/-- Before anything is placed, all dependencies among the modules are missing. -/
def unplaced (graph : Graph) (subset : List String) : Ordering.Pending :=
  ⟨subset.map fun path => (path, (graph.dependenciesWithin subset path).length),
    subset.filter fun path => (graph.dependenciesWithin subset path).isEmpty⟩

theorem order_eq (graph : Graph) (subset : List String) :
    graph.order subset =
      let placed := Ordering.place (graph.dependentsWithin subset) subset
        (graph.unplaced subset)
      if placed.2.isEmpty then ⟨placed.1, .complete⟩
      else ⟨placed.1 ++ placed.2, .degraded placed.2⟩ := by
  have selected (test : List String → Bool) :
      ((subset.map fun path => (path, graph.dependenciesWithin subset path)).filter
          fun entry => test entry.2).map (·.1) =
        subset.filter fun path => test (graph.dependenciesWithin subset path) := by
    simp [List.filter_map, Function.comp_def]
  have dependents (node : String) := selected fun targets => targets.contains node
  simp only [order, unplaced, dependents, selected List.isEmpty, List.map_map,
    Function.comp_def]
  rfl

theorem dependentsWithin_inverts (graph : Graph) {subset : List String}
    (distinct : subset.Nodup) :
    Ordering.Inverts subset (graph.dependenciesWithin subset)
      (graph.dependentsWithin subset) where
  mem_iff node dependent := by simp [dependentsWithin]
  distinctDependents _ := distinct.filter _
  distinctDependencies node := (graph.nodup_dependencies node).filter _

theorem count_unplaced (graph : Graph) {subset : List String} {node : String}
    (member : node ∈ subset) :
    (graph.unplaced subset).count node = (graph.dependenciesWithin subset node).length := by
  have found := lookup_map_self
    (fun path => (graph.dependenciesWithin subset path).length) member
  rw [Ordering.Pending.count, unplaced, found, Option.getD_some]

theorem unplaced_tracks (graph : Graph) {subset : List String} (distinct : subset.Nodup) :
    Ordering.Tracks subset (graph.dependenciesWithin subset) subset
      (graph.unplaced subset) := by
  constructor
  · exact fun _ member => member
  · intro node member
    have all : Ordering.missingOf (graph.dependenciesWithin subset) subset node =
        graph.dependenciesWithin subset node := by
      refine List.filter_eq_self.mpr ?_
      intro target dependency
      simpa using (mem_dependenciesWithin.mp dependency).2
    rw [graph.count_unplaced member, all]
  · intro node member absent
    exact absurd member absent
  · exact distinct.filter _
  · intro node
    rw [unplaced, List.mem_filter, List.isEmpty_iff, ← List.length_eq_zero_iff]
    refine and_congr_right ?_
    intro member
    rw [← graph.count_unplaced member, unplaced]

/-- An order consists of the placed modules and the ones left over, and tells the latter. -/
theorem order_placed (graph : Graph) {subset : List String} (distinct : subset.Nodup) :
    ∃ placed left, Ordering.Placed (graph.dependenciesWithin subset) subset (placed, left) ∧
      (graph.order subset).order = placed ++ left ∧
      (graph.order subset).status = if left = [] then .complete else .degraded left := by
  refine ⟨_, _, Ordering.place_placed (graph.dependentsWithin_inverts distinct)
    (graph.unplaced_tracks distinct), ?_⟩
  rw [order_eq]
  simp only [List.isEmpty_iff]
  split
  next empty => exact ⟨by rw [empty, List.append_nil], rfl⟩
  next some => exact ⟨rfl, rfl⟩

/-! ## What an order shows of the edges -/

/-- Of two different members of a list the first has an edge to the second. -/
def DependsWithin (graph : Graph) (subset : List String) (first second : String) : Prop :=
  first ∈ subset ∧ second ∈ subset ∧ first ≠ second ∧ graph.Leads first second

/-- A cycle of members of a list is reached over members of the list. -/
def ReachesCycleWithin (graph : Graph) (subset : List String) (node : String) : Prop :=
  ∃ other, Relation.ReflTransGen (graph.DependsWithin subset) node other ∧
    Relation.TransGen (graph.DependsWithin subset) other other

variable {graph : Graph} {subset : List String}

theorem dependsWithin_iff {first second : String} :
    graph.DependsWithin subset first second ↔
      first ∈ subset ∧ second ∈ graph.dependenciesWithin subset first := by
  rw [DependsWithin, mem_dependenciesWithin, depends_iff]
  constructor
  · intro depends
    obtain ⟨firstMember, secondMember, different, leads⟩ := depends
    exact ⟨firstMember, ⟨leads, different.symm⟩, secondMember⟩
  · intro depends
    obtain ⟨firstMember, ⟨leads, different⟩, secondMember⟩ := depends
    exact ⟨firstMember, secondMember, different.symm, leads⟩

/-- A way that begins at a member stays among the members. -/
theorem transGen_dependsWithin_iff {first second : String} (member : first ∈ subset) :
    Relation.TransGen (graph.DependsWithin subset) first second ↔
      Relation.TransGen (fun source target => target ∈ graph.dependenciesWithin subset source)
        first second := by
  constructor
  · exact Relation.TransGen.mono (fun _ _ depends => (dependsWithin_iff.mp depends).2) _ _
  · intro way
    induction way with
    | single step => exact .single (dependsWithin_iff.mpr ⟨member, step⟩)
    | @tail middle last before step induction =>
        obtain ⟨_, _, lastStep⟩ := Relation.TransGen.tail'_iff.mp before
        exact induction.tail
          (dependsWithin_iff.mpr ⟨(mem_dependenciesWithin.mp lastStep).2, step⟩)

/-- Every module on a cycle is a member, because the cycle leads back to it. -/
theorem cycle_dependsWithin_iff {node : String} :
    Relation.TransGen (graph.DependsWithin subset) node node ↔
      Relation.TransGen (fun source target => target ∈ graph.dependenciesWithin subset source)
        node node := by
  constructor
  · exact Relation.TransGen.mono (fun _ _ depends => (dependsWithin_iff.mp depends).2) _ _
  · intro cycle
    obtain ⟨_, _, lastStep⟩ := Relation.TransGen.tail'_iff.mp cycle
    exact (transGen_dependsWithin_iff (mem_dependenciesWithin.mp lastStep).2).mpr cycle

theorem reachesCycleWithin_iff {node : String} (member : node ∈ subset) :
    graph.ReachesCycleWithin subset node ↔ ∃ other,
      Relation.ReflTransGen (fun source target => target ∈ graph.dependenciesWithin subset source)
        node other ∧
      Relation.TransGen (fun source target => target ∈ graph.dependenciesWithin subset source)
        other other := by
  refine exists_congr fun other => and_congr ?_ cycle_dependsWithin_iff
  rw [Relation.reflTransGen_iff_eq_or_transGen, Relation.reflTransGen_iff_eq_or_transGen,
    transGen_dependsWithin_iff member]

end Graph

/-- The modules that could not be placed. -/
def Ordering.Status.appended : Status → List String
  | .complete => []
  | .degraded appended => appended

/-- What an order of some modules shows: nothing is lost, placed modules stand after their
dependencies, and the others reach a cycle and come last. -/
structure Ordering.IsDependencyFirst (graph : Graph) (subset : List String)
    (ordering : Ordering) : Prop where
  perm : ordering.order.Perm subset
  dependenciesFirst : ∀ before node after, ordering.order = before ++ node :: after →
    node ∉ ordering.status.appended →
      ∀ target, graph.DependsWithin subset node target → target ∈ before
  complete_iff : ordering.status = .complete ↔
    ∀ node, ¬Relation.TransGen (graph.DependsWithin subset) node node
  mem_appended_iff : ∀ node, node ∈ ordering.status.appended ↔
    node ∈ subset ∧ graph.ReachesCycleWithin subset node
  appendedInOrder : ordering.status.appended.Sublist subset
  appendedLast : ordering.status.appended <:+ ordering.order

namespace Graph

variable {graph : Graph} {subset : List String}

/-- An order of distinct modules, known to the graph or not, is dependency-first as far as the
modules reach no cycle. -/
theorem order_isDependencyFirst (graph : Graph) (distinct : subset.Nodup) :
    (graph.order subset).IsDependencyFirst graph subset := by
  obtain ⟨placed, left, placement, order, status⟩ := graph.order_placed distinct
  have inside (node : String) :
      ∀ target ∈ graph.dependenciesWithin subset node, target ∈ subset :=
    fun _ within => (mem_dependenciesWithin.mp within).2
  have appended : (graph.order subset).status.appended = left := by
    rw [status]
    split
    next none => rw [none]; rfl
    next some => rfl
  have mem_left_iff (node : String) :
      node ∈ left ↔ node ∈ subset ∧ graph.ReachesCycleWithin subset node := by
    rw [placement.mem_left_iff inside]
    exact and_congr_right fun member => (reachesCycleWithin_iff member).symm
  have permutation := placement.perm distinct
  constructor
  case perm => rw [order]; exact permutation
  case dependenciesFirst =>
    rw [order, appended]
    intro before node after split notLeft target depends
    -- The position of the module is one among the placed modules.
    obtain ⟨rest, placedSplit⟩ : ∃ rest, placed = before ++ node :: rest := by
      obtain ⟨front, _, leftSplit⟩ | ⟨back, placedSplit, backSplit⟩ :=
        List.append_eq_append_iff.mp split
      · exact absurd (leftSplit ▸ List.mem_append_right front List.mem_cons_self) notLeft
      · cases back with
        | nil =>
            have leftSplit : left = node :: after := backSplit.symm
            exact absurd (leftSplit ▸ List.mem_cons_self) notLeft
        | cons first rest =>
            obtain ⟨rfl, -⟩ := List.cons.inj backSplit
            exact ⟨rest, placedSplit⟩
    have within := (dependsWithin_iff.mp depends).2
    exact placement.dependenciesFirst before node rest placedSplit target within depends.2.1
  case complete_iff =>
    have complete : (graph.order subset).status = .complete ↔ left = [] := by
      rw [status]
      split <;> simp_all
    rw [complete, List.eq_nil_iff_forall_not_mem]
    constructor
    · intro none node cycle
      obtain ⟨_, _, lastStep⟩ := Relation.TransGen.tail'_iff.mp cycle
      exact none node ((mem_left_iff node).mpr ⟨lastStep.2.1, node, .refl, cycle⟩)
    · intro acyclic node member
      obtain ⟨_, other, _, cycle⟩ := (mem_left_iff node).mp member
      exact acyclic other cycle
  case mem_appended_iff => rw [appended]; exact mem_left_iff
  case appendedInOrder =>
    have unplaced : left = unvisited placed subset := placement.left
    rw [appended, unplaced]
    exact List.filter_sublist
  case appendedLast =>
    rw [appended, order]
    exact List.suffix_append placed left

/-- A module that imports one of two modules that import each other. -/
def importedCycle : Graph where
  project := "cycle"
  version := documentVersion
  indexedAt := default
  modules := .ofList [("a.py", .new "a.py" .python), ("b.py", .new "b.py" .python),
    ("c.py", .new "c.py" .python), ("d.py", .new "d.py" .python)]
  edges := [⟨"a.py", "b.py", .importStatement, []⟩, ⟨"b.py", "c.py", .importStatement, []⟩,
    ⟨"c.py", "b.py", .importStatement, []⟩, ⟨"d.py", "d.py", .importStatement, []⟩]

theorem order_importedCycle :
    ["a.py", "b.py", "gone.py", "c.py", "d.py"].Nodup ∧
      (importedCycle.order ["a.py", "b.py", "gone.py", "c.py", "d.py"]).IsDependencyFirst
        importedCycle ["a.py", "b.py", "gone.py", "c.py", "d.py"] :=
  ⟨by decide, order_isDependencyFirst importedCycle (by decide)⟩

example : importedCycle.order ["a.py", "b.py", "gone.py", "c.py", "d.py"] =
    ⟨["gone.py", "d.py", "a.py", "b.py", "c.py"], .degraded ["a.py", "b.py", "c.py"]⟩ := by
  cbv

end Graph

end CodeAtlas
