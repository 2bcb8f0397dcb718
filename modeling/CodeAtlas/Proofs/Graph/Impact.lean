import CodeAtlas.Graph.Impact
import CodeAtlas.Proofs.Graph.Reachability
import Mathlib.Data.Finset.Card
import Mathlib.Data.Finset.Lattice.Lemmas

/-!
# What a change reaches

The modules with an edge to the changed one are its direct dependents.  Spreading from them, one
layer of dependents after the other, finds each module that reaches the changed one, whatever
cycles there are, and none twice.
-/

namespace CodeAtlas

/-- What an impact shows of the edges: every module that reaches the changed one stands in exactly
one of two ascending lists, in the first if an edge of its own leads there. -/
structure Impact.IsOf (graph : Graph) (path : String) (impact : Impact) : Prop where
  module : impact.module = path
  directAscending : impact.direct.Pairwise (· < ·)
  indirectAscending : impact.indirect.Pairwise (· < ·)
  mem_direct_iff : ∀ other, other ∈ impact.direct ↔ other ≠ path ∧ graph.Leads other path
  mem_indirect_iff : ∀ other, other ∈ impact.indirect ↔
    other ≠ path ∧ other ∉ impact.direct ∧ graph.Reaches other path
  disjoint : impact.direct.Disjoint impact.indirect
  notItself : path ∉ impact.direct ∧ path ∉ impact.indirect
  mem_iff : ∀ other, other ∈ impact.direct ∨ other ∈ impact.indirect ↔
    other ≠ path ∧ graph.Reaches other path
  total : impact.total = (impact.direct.toFinset ∪ impact.indirect.toFinset).card
  low_iff : impact.risk = .low ↔ impact.total < 2
  high_iff : impact.risk = .high ↔ 5 < impact.total

namespace Risk

theorem ofDependents_eq_low_iff {total : Nat} : ofDependents total = .low ↔ total < 2 := by
  unfold ofDependents
  split
  next few => simp; omega
  next many => split <;> simp <;> omega

theorem ofDependents_eq_high_iff {total : Nat} : ofDependents total = .high ↔ 5 < total := by
  unfold ofDependents
  split
  next few => simp; omega
  next many => split <;> simp <;> omega

end Risk

/-- Two ascending lists with the right members make up the whole impact. -/
theorem Impact.isOf_of_lists {graph : Graph} {path : String} {impact : Impact}
    (module : impact.module = path)
    (directAscending : impact.direct.Pairwise (· < ·))
    (indirectAscending : impact.indirect.Pairwise (· < ·))
    (directIff : ∀ other, other ∈ impact.direct ↔ other ≠ path ∧ graph.Leads other path)
    (indirectIff : ∀ other, other ∈ impact.indirect ↔
      other ≠ path ∧ other ∉ impact.direct ∧ graph.Reaches other path) :
    impact.IsOf graph path := by
  have disjoint : impact.direct.Disjoint impact.indirect :=
    fun other direct indirect => ((indirectIff other).mp indirect).2.1 direct
  refine {
    module, directAscending, indirectAscending, disjoint
    mem_direct_iff := directIff
    mem_indirect_iff := indirectIff
    notItself := ⟨fun direct => ((directIff _).mp direct).1 rfl,
      fun indirect => ((indirectIff _).mp indirect).1 rfl⟩
    mem_iff := ?mem_iff
    total := ?total
    low_iff := Risk.ofDependents_eq_low_iff
    high_iff := Risk.ofDependents_eq_high_iff }
  case mem_iff =>
    intro other
    rw [indirectIff, directIff]
    constructor
    · intro found
      rcases found with ⟨different, leads⟩ | ⟨different, _, reaches⟩
      · exact ⟨different, .single leads⟩
      · exact ⟨different, reaches⟩
    · intro reaches
      obtain ⟨different, reaches⟩ := reaches
      by_cases leads : graph.Leads other path
      · exact .inl ⟨different, leads⟩
      · exact .inr ⟨different, fun direct => leads direct.2, reaches⟩
  case total =>
    rw [Finset.card_union_of_disjoint (List.disjoint_toFinset_iff_disjoint.mpr disjoint),
      List.toFinset_card_of_nodup (nodup_of_ascending directAscending),
      List.toFinset_card_of_nodup (nodup_of_ascending indirectAscending), Impact.total]

namespace Graph

variable {graph : Graph} {paths frontier : List String} {path : String}

theorem mem_dependents_iff {target : String} :
    path ∈ graph.dependents target ↔ graph.Depends path target := by
  rw [depends_iff, Leads, dependents]
  split
  next known =>
    simp only [List.mem_filter, Bool.and_eq_true, bne_iff_ne, ne_eq, List.contains_iff_mem,
      edgesTo, List.mem_map, beq_iff_eq, contains_iff_mem_keys] at known ⊢
    grind
  next unknown => simp [unknown]

theorem pairwise_dependents (graph : Graph) (path : String) :
    (graph.dependents path).Pairwise (· < ·) := by
  unfold dependents
  dsimp only
  split
  next => exact graph.modules.pairwise_keys.filter _
  next => exact .nil

/-! ## Spreading from a frontier -/

theorem mem_reaching_iff : path ∈ graph.reaching paths frontier ↔
    path ∈ paths ∧ ∃ target ∈ frontier, graph.Depends path target := by
  simp only [reaching, List.mem_filter, List.any_eq_true, List.contains_iff_mem, Depends]
  exact and_congr_right fun _ => exists_congr fun _ => and_comm

/-- What spreading finds is one of the given modules and reaches the frontier. -/
theorem reaches_of_mem_spread (found : path ∈ graph.spread paths frontier) :
    ∃ target ∈ frontier, Relation.ReflTransGen graph.Depends path target := by
  induction paths, frontier using spread.induct graph with
  | case1 paths frontier next none =>
      rw [spread] at found
      simp [next, none] at found
  | case2 paths frontier next some induction =>
      rw [spread, dif_neg some] at found
      have layer {node : String} (member : node ∈ next) :
          ∃ target ∈ frontier, graph.Depends node target :=
        (mem_reaching_iff.mp member).2
      rcases List.mem_append.mp found with here | later
      · obtain ⟨target, member, depends⟩ := layer here
        exact ⟨target, member, .single depends⟩
      · obtain ⟨node, member, reaches⟩ := induction later
        obtain ⟨target, targetMember, depends⟩ := layer member
        exact ⟨target, targetMember, reaches.tail depends⟩

/-- The given modules that depend on something found, or on the frontier, are found. -/
theorem mem_spread_of_depends {target : String} (given : path ∈ paths)
    (depends : graph.Depends path target)
    (found : target ∈ frontier ∨ target ∈ graph.spread paths frontier) :
    path ∈ graph.spread paths frontier := by
  induction paths, frontier using spread.induct graph with
  | case1 paths frontier next none =>
      rw [spread, dif_pos none] at found ⊢
      have inFrontier : target ∈ frontier := found.resolve_right List.not_mem_nil
      exact none ▸ mem_reaching_iff.mpr ⟨given, target, inFrontier, depends⟩
  | case2 paths frontier next some induction =>
      rw [spread, dif_neg some] at found ⊢
      rw [List.mem_append]
      by_cases here : path ∈ next
      · exact .inl here
      · refine .inr (induction (mem_unvisited.mpr ⟨given, here⟩) ?_)
        rcases found with inFrontier | found
        · exact absurd (mem_reaching_iff.mpr ⟨given, target, inFrontier, depends⟩) here
        · exact List.mem_append.mp found

/-! ## The impact of a module -/

/-- What reaches a module is the module itself, one of its dependents, or found by spreading from
these. -/
theorem mem_of_reaches {other : String} (reaches : graph.Reaches other path) :
    other = path ∨ other ∈ graph.dependents path ∨
      other ∈ graph.spread (unvisited (path :: graph.dependents path) graph.modules.keys)
        (graph.dependents path) := by
  rw [reaches_iff_depends] at reaches
  -- The induction goes backwards along the way, from the module to what stands before it.
  induction reaches using Relation.ReflTransGen.head_induction_on with
  | refl => exact .inl rfl
  | @head other next depends _ induction =>
      rcases induction with rfl | found
      · exact .inr (.inl (mem_dependents_iff.mpr depends))
      · by_cases visited : other ∈ path :: graph.dependents path
        · rcases List.mem_cons.mp visited with same | direct
          · exact .inl same
          · exact .inr (.inl direct)
        · have known : other ∈ graph.modules.keys :=
            contains_iff_mem_keys.mp (depends_iff.mp depends).1.1
          have given := mem_unvisited.mpr ⟨known, visited⟩
          exact .inr (.inr (mem_spread_of_depends given depends found))

/-- The impact of a known module is the one that the edges show. -/
theorem exists_impact (known : graph.contains path = true) :
    ∃ impact, graph.impact path = .ok impact ∧ impact.IsOf graph path := by
  rw [impact, if_pos known]
  extract_lets direct others reached
  have directIff (other : String) : other ∈ direct ↔ other ≠ path ∧ graph.Leads other path := by
    rw [mem_dependents_iff, depends_iff, and_comm, ne_comm]
  refine ⟨_, rfl, Impact.isOf_of_lists rfl (graph.pairwise_dependents path)
    ((graph.modules.pairwise_keys.filter _).filter _) directIff ?_⟩
  intro other
  rw [List.mem_filter, List.contains_iff_mem, mem_unvisited, List.mem_cons, not_or]
  constructor
  · intro found
    obtain ⟨⟨_, different, notDirect⟩, spread⟩ := found
    obtain ⟨target, member, reaches⟩ := reaches_of_mem_spread spread
    refine ⟨different, notDirect, ?_⟩
    exact reaches_iff_depends.mpr (reaches.tail (mem_dependents_iff.mp member))
  · intro reaches
    obtain ⟨different, notDirect, reaches⟩ := reaches
    have spread := ((mem_of_reaches reaches).resolve_left different).resolve_left notDirect
    obtain ⟨next, leads, _⟩ := reaches.cases_head.resolve_left different
    exact ⟨⟨contains_iff_mem_keys.mp leads.1, different, notDirect⟩, spread⟩

/-- The impact of a change is known exactly for modules, and is then what the edges show. -/
theorem impact_shows_dependents (graph : Graph) (path : String) :
    (graph.contains path = true ↔
      ∃ impact, graph.impact path = .ok impact ∧ impact.IsOf graph path) ∧
    (graph.contains path = false ↔ graph.impact path = .error (.notFound .module path)) := by
  cases known : graph.contains path with
  | true =>
      obtain ⟨impact, success, isOf⟩ := exists_impact known
      exact ⟨iff_of_true rfl ⟨impact, success, isOf⟩, by simp [success]⟩
  | false =>
      have failure : graph.impact path = .error (.notFound .module path) := by
        rw [impact, known]
        rfl
      exact ⟨by simp [failure], iff_of_true rfl failure⟩

end Graph

end CodeAtlas
