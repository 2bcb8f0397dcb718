import CodeAtlas.Proofs.Graph.Order

/-!
# Ordered closures

The closure of a module in dependency-first order.  The module depends on every other member, so
it comes last if the order is complete; if a cycle is reached from any member, it is reached from
the module too, which is then the first of the members that are appended.
-/

namespace CodeAtlas

namespace Graph

variable {graph : Graph} {primary : String}

theorem depends_within_closure {node other : String} (reached : graph.Reaches primary node)
    (way : Relation.TransGen graph.Depends node other) :
    Relation.TransGen
      (fun first second => second ∈ graph.dependenciesWithin (graph.closure primary) first)
      node other := by
  have known {first second : String} (reachedFirst : graph.Reaches primary first)
      (step : graph.Depends first second) :
      second ∈ graph.dependenciesWithin (graph.closure primary) first :=
    mem_dependenciesWithin.mpr
      ⟨step, mem_closure_iff.mpr (reachedFirst.tail (depends_iff.mp step).1)⟩
  induction way with
  | single step => exact .single (known reached step)
  | @tail middle last before step induction =>
      have reachedMiddle : graph.Reaches primary middle :=
        reached.trans (reaches_iff_depends.mpr before.to_reflTransGen)
      exact induction.tail (known reachedMiddle step)

theorem reaches_within_closure {other : String} (reaches : graph.Reaches primary other) :
    Relation.ReflTransGen
      (fun first second => second ∈ graph.dependenciesWithin (graph.closure primary) first)
      primary other := by
  rcases Relation.reflTransGen_iff_eq_or_transGen.mp (reaches_iff_depends.mp reaches) with
    same | way
  · exact same ▸ .refl
  · exact (depends_within_closure .refl way).to_reflTransGen

theorem within_closure_depends {first second : String}
    (within : second ∈ graph.dependenciesWithin (graph.closure primary) first) :
    graph.Depends first second :=
  (mem_dependenciesWithin.mp within).1

/-- The closure of a module and the modules left over when it is ordered. -/
structure OrderedClosure (graph : Graph) (primary : String) (placed left : List String) :
    Prop where
  placement : Ordering.Placed (graph.dependenciesWithin (graph.closure primary))
    (graph.closure primary) (placed, left)
  order : (graph.order (graph.closure primary)).order = placed ++ left
  status : (graph.order (graph.closure primary)).status =
    if left = [] then .complete else .degraded left

theorem exists_orderedClosure (graph : Graph) (primary : String) :
    ∃ placed left, graph.OrderedClosure primary placed left := by
  obtain ⟨placed, left, placement, order, status⟩ :=
    graph.order_placed (graph.nodup_closure primary)
  exact ⟨placed, left, placement, order, status⟩

namespace OrderedClosure

variable {placed left : List String}

theorem inside (node : String) :
    ∀ target ∈ graph.dependenciesWithin (graph.closure primary) node,
      target ∈ graph.closure primary :=
  fun _ within => (mem_dependenciesWithin.mp within).2

theorem status_eq_complete_iff (closure : graph.OrderedClosure primary placed left) :
    (graph.order (graph.closure primary)).status = .complete ↔ left = [] := by
  rw [closure.status]
  split <;> simp_all

theorem status_eq_degraded_iff (closure : graph.OrderedClosure primary placed left)
    {appended : List String} :
    (graph.order (graph.closure primary)).status = .degraded appended ↔
      left ≠ [] ∧ appended = left := by
  rw [closure.status]
  split
  next none => simp [none]
  next some => simp [some, eq_comm]

theorem order_of_complete (closure : graph.OrderedClosure primary placed left)
    (complete : left = []) : (graph.order (graph.closure primary)).order = placed := by
  rw [closure.order, complete, List.append_nil]

theorem mem_order_iff (closure : graph.OrderedClosure primary placed left) {path : String} :
    path ∈ (graph.order (graph.closure primary)).order ↔ graph.Reaches primary path := by
  rw [closure.order, (closure.placement.perm (graph.nodup_closure primary)).mem_iff,
    mem_closure_iff]

theorem nodup_order (closure : graph.OrderedClosure primary placed left) :
    (graph.order (graph.closure primary)).order.Nodup := by
  rw [closure.order, (closure.placement.perm (graph.nodup_closure primary)).nodup_iff]
  exact graph.nodup_closure primary

/-- Modules are left over exactly when the primary module reaches a cycle, and then the primary
module is one of them. -/
theorem primary_mem_left_iff (closure : graph.OrderedClosure primary placed left) :
    primary ∈ left ↔ graph.ReachesCycle primary := by
  rw [reachesCycle_iff]
  constructor
  · intro member
    obtain ⟨_, other, reaches, cycle⟩ := (closure.placement.mem_left_iff inside).mp member
    exact ⟨other, Relation.ReflTransGen.mono (fun _ _ => within_closure_depends) _ _ reaches,
      Relation.TransGen.mono (fun _ _ => within_closure_depends) _ _ cycle⟩
  · intro cycle
    obtain ⟨other, reaches, cycle⟩ := cycle
    have reached := reaches_iff_depends.mpr reaches
    exact (closure.placement.mem_left_iff inside).mpr ⟨mem_closure_iff.mpr .refl, other,
      reaches_within_closure reached, depends_within_closure reached cycle⟩

theorem primary_mem_left (closure : graph.OrderedClosure primary placed left) (some : left ≠ []) :
    primary ∈ left := by
  obtain ⟨node, member⟩ := List.exists_mem_of_ne_nil left some
  obtain ⟨remains, other, reaches, cycle⟩ := (closure.placement.mem_left_iff inside).mp member
  exact (closure.placement.mem_left_iff inside).mpr ⟨mem_closure_iff.mpr .refl, other,
    (reaches_within_closure (mem_closure_iff.mp remains)).trans reaches, cycle⟩

theorem head?_left (closure : graph.OrderedClosure primary placed left) (some : left ≠ []) :
    left.head? = Option.some primary := by
  have member := closure.primary_mem_left some
  have shape : left = unvisited placed (graph.closure primary) := closure.placement.left
  rw [shape, mem_unvisited] at member
  obtain ⟨rest, front⟩ : ∃ rest, graph.closure primary = primary :: rest :=
    List.head?_eq_some_iff.mp (graph.head?_closure primary)
  rw [shape, front, unvisited, List.filter_cons_of_pos (by simpa using member.2), List.head?_cons]

/-- If no module is left over, nothing can come after the primary module. -/
theorem getLast?_placed (closure : graph.OrderedClosure primary placed left)
    (complete : left = []) : placed.getLast? = some primary := by
  have members {path : String} : path ∈ placed ↔ graph.Reaches primary path := by
    rw [← closure.mem_order_iff, closure.order_of_complete complete]
  obtain ⟨before, after, split⟩ := List.append_of_mem (members.mpr .refl)
  have distinct : (before ++ primary :: after).Nodup := split ▸ closure.placement.distinct
  -- Whatever came after the primary module would be reached from it, and so stand before it.
  have last : after = [] := by
    refine List.eq_nil_iff_forall_not_mem.mpr ?_
    intro other member
    have different : other ≠ primary := by
      intro same
      subst same
      exact (List.nodup_cons.mp (List.nodup_append.mp distinct).2.1).1 member
    have reaches : graph.Reaches primary other := by
      rw [← members, split]
      exact List.mem_append_right _ (List.mem_cons_of_mem _ member)
    have way := (Relation.reflTransGen_iff_eq_or_transGen.mp
      (reaches_within_closure reaches)).resolve_left different
    have earlier := closure.placement.mem_before inside way split
    exact (List.nodup_append.mp distinct).2.2 other earlier other
      (List.mem_cons_of_mem _ member) rfl
  rw [split, last, List.getLast?_concat]

theorem dependencies_before (closure : graph.OrderedClosure primary placed left)
    (complete : left = []) {before after : List String} {path target : String}
    (split : placed = before ++ path :: after) (leads : graph.Leads path target)
    (different : target ≠ path) : target ∈ before := by
  have reached : graph.Reaches primary path := by
    rw [← closure.mem_order_iff, closure.order_of_complete complete, split]
    exact List.mem_append_right _ List.mem_cons_self
  have within : target ∈ graph.dependenciesWithin (graph.closure primary) path :=
    mem_dependenciesWithin.mpr
      ⟨depends_iff.mpr ⟨leads, different⟩, mem_closure_iff.mpr (reached.tail leads)⟩
  exact closure.placement.dependenciesFirst before path after split target within
    (inside path target within)

end OrderedClosure

end Graph

end CodeAtlas
