import CodeAtlas.Graph.Ordering
import CodeAtlas.Proofs.Keyed
import Mathlib.Data.List.Nodup

/-!
# Placing modules after their dependencies

While modules are placed, the number kept for a module is the number of its dependencies that
remain, and the modules that are ready are those of number zero.  From this it follows what has
been placed at the end: every dependency before its dependents, and nothing that could still be
placed is left over.
-/

namespace CodeAtlas.Ordering

namespace Pending

/-- How many dependencies of a module are missing. -/
def count (pending : Pending) (node : String) : Nat :=
  (pending.missing.lookup node).getD 0

theorem lookup_filter_ne {entries : List (String × Nat)} {key other : String}
    (different : other ≠ key) :
    (entries.filter (·.1 != key)).lookup other = entries.lookup other := by
  induction entries with
  | nil => rfl
  | cons head tail induction =>
      by_cases same : head.1 = key
      · have notHead : other ≠ head.1 := fun equality => different (equality.trans same)
        rw [List.filter_cons_of_neg (by simp [same]), induction, Keyed.lookup_cons_eq_ite,
          if_neg notHead]
      · rw [List.filter_cons_of_pos (by simp [same]), Keyed.lookup_cons_eq_ite,
          Keyed.lookup_cons_eq_ite, induction]

@[simp] theorem count_settle (pending : Pending) (dependent node : String) :
    (pending.settle dependent).count node =
      if node = dependent then pending.count node - 1 else pending.count node := by
  simp only [count, settle, Keyed.lookup_cons_eq_ite]
  split
  next same => simp [same]
  next different => rw [lookup_filter_ne different]

theorem ready_settle (pending : Pending) (dependent : String) :
    (pending.settle dependent).ready =
      pending.ready ++ [dependent].filter fun node => pending.count node - 1 = 0 := by
  simp only [settle, List.filter_singleton, count]
  split <;> simp_all

theorem count_foldl_settle {dependents : List String} (distinct : dependents.Nodup)
    (pending : Pending) (node : String) :
    (dependents.foldl settle pending).count node =
      if node ∈ dependents then pending.count node - 1 else pending.count node := by
  induction dependents generalizing pending with
  | nil => simp
  | cons dependent rest induction =>
      obtain ⟨absent, restDistinct⟩ := List.nodup_cons.mp distinct
      rw [List.foldl_cons, induction restDistinct, count_settle]
      by_cases same : node = dependent
      · simp [same, absent]
      · simp [same]

theorem ready_foldl_settle {dependents : List String} (distinct : dependents.Nodup)
    (pending : Pending) :
    (dependents.foldl settle pending).ready =
      pending.ready ++ dependents.filter fun node => pending.count node - 1 = 0 := by
  induction dependents generalizing pending with
  | nil => simp
  | cons dependent rest induction =>
      obtain ⟨absent, restDistinct⟩ := List.nodup_cons.mp distinct
      have unchanged : rest.filter (fun node => (pending.settle dependent).count node - 1 = 0) =
          rest.filter fun node => pending.count node - 1 = 0 := by
        refine List.filter_congr ?_
        intro node member
        have different : node ≠ dependent := fun same => absent (same ▸ member)
        rw [count_settle, if_neg different]
      rw [List.foldl_cons, induction restDistinct, ready_settle, unchanged, List.append_assoc,
        ← List.filter_append, List.singleton_append]

end Pending

/-- The modules of a list that depend on a module are listed as they should be, each once. -/
structure Inverts (subset : List String) (dependenciesOf dependentsOf : String → List String) :
    Prop where
  mem_iff : ∀ node dependent,
    dependent ∈ dependentsOf node ↔ dependent ∈ subset ∧ node ∈ dependenciesOf dependent
  distinctDependents : ∀ node, (dependentsOf node).Nodup
  distinctDependencies : ∀ node, (dependenciesOf node).Nodup

/-- The dependencies of a module that have not been placed. -/
def missingOf (dependenciesOf : String → List String) (remaining : List String)
    (node : String) : List String :=
  (dependenciesOf node).filter fun target => remaining.contains target

@[simp] theorem mem_missingOf {dependenciesOf : String → List String} {remaining : List String}
    {node target : String} :
    target ∈ missingOf dependenciesOf remaining node ↔
      target ∈ dependenciesOf node ∧ target ∈ remaining := by
  simp [missingOf]

/-- The numbers and the queue are what the remaining modules make them. -/
structure Tracks (subset : List String) (dependenciesOf : String → List String)
    (remaining : List String) (pending : Pending) : Prop where
  within : ∀ node ∈ remaining, node ∈ subset
  count : ∀ node ∈ subset,
    pending.count node = (missingOf dependenciesOf remaining node).length
  settled : ∀ node ∈ subset, node ∉ remaining → pending.count node = 0
  distinct : pending.ready.Nodup
  ready : ∀ node, node ∈ pending.ready ↔ node ∈ remaining ∧ pending.count node = 0

/-- What placing yields: the modules placed and the ones left over. -/
structure Placed (dependenciesOf : String → List String) (remaining : List String)
    (result : List String × List String) : Prop where
  distinct : result.1.Nodup
  within : ∀ node ∈ result.1, node ∈ remaining
  left : result.2 = Graph.unvisited result.1 remaining
  dependenciesFirst : ∀ before node after, result.1 = before ++ node :: after →
    ∀ target ∈ dependenciesOf node, target ∈ remaining → target ∈ before
  blocked : ∀ node ∈ result.2, ∃ target ∈ dependenciesOf node, target ∈ result.2

section Step

variable {subset remaining ready : List String} {node : String} {pending : Pending}
  {dependenciesOf dependentsOf : String → List String}

/-- A dependent of a remaining module remains, because a dependency of it is missing. -/
theorem Tracks.dependent_remaining (tracks : Tracks subset dependenciesOf remaining pending)
    (inverts : Inverts subset dependenciesOf dependentsOf) (member : node ∈ remaining)
    {dependent : String} (depends : dependent ∈ dependentsOf node) :
    dependent ∈ remaining ∧ 0 < pending.count dependent := by
  obtain ⟨inSubset, dependency⟩ := (inverts.mem_iff node dependent).mp depends
  have positive : 0 < pending.count dependent := by
    rw [tracks.count dependent inSubset]
    exact List.length_pos_of_mem (mem_missingOf.mpr ⟨dependency, member⟩)
  refine ⟨?_, positive⟩
  by_contra placed
  exact Nat.ne_of_gt positive (tracks.settled dependent inSubset placed)

/-- Placing a module takes it off the missing dependencies of its dependents. -/
theorem length_missingOf_unvisited (inverts : Inverts subset dependenciesOf dependentsOf)
    (member : node ∈ remaining) {other : String} (inSubset : other ∈ subset) :
    (missingOf dependenciesOf (Graph.unvisited [node] remaining) other).length =
      if other ∈ dependentsOf node then (missingOf dependenciesOf remaining other).length - 1
      else (missingOf dependenciesOf remaining other).length := by
  have distinct : (missingOf dependenciesOf remaining other).Nodup :=
    (inverts.distinctDependencies other).filter _
  have erased : missingOf dependenciesOf (Graph.unvisited [node] remaining) other =
      (missingOf dependenciesOf remaining other).erase node := by
    rw [distinct.erase_eq_filter, missingOf, missingOf, List.filter_filter]
    refine List.filter_congr ?_
    intro target _
    by_cases same : target = node <;> simp [Graph.unvisited, same]
  rw [erased, List.length_erase]
  simp [inverts.mem_iff, inSubset, member]

/-- Placing a module that is ready keeps the numbers and the queue right. -/
theorem Tracks.step (tracks : Tracks subset dependenciesOf remaining pending)
    (inverts : Inverts subset dependenciesOf dependentsOf)
    (front : pending.ready = node :: ready) :
    Tracks subset dependenciesOf (Graph.unvisited [node] remaining)
      ((dependentsOf node).foldl Pending.settle ⟨pending.missing, ready⟩) := by
  have distinctDependents := inverts.distinctDependents node
  obtain ⟨member, none⟩ := (tracks.ready node).mp (front ▸ List.mem_cons_self)
  obtain ⟨notReady, readyDistinct⟩ := List.nodup_cons.mp (front ▸ tracks.distinct)
  have countAfter (other : String) :
      ((dependentsOf node).foldl Pending.settle ⟨pending.missing, ready⟩).count other =
        if other ∈ dependentsOf node then pending.count other - 1 else pending.count other :=
    Pending.count_foldl_settle distinctDependents _ other
  have readyAfter :
      ((dependentsOf node).foldl Pending.settle ⟨pending.missing, ready⟩).ready =
        ready ++ (dependentsOf node).filter fun other => pending.count other - 1 = 0 :=
    Pending.ready_foldl_settle distinctDependents _
  have stillReady {other : String} (waits : other ∈ ready) :
      other ∈ remaining ∧ pending.count other = 0 :=
    (tracks.ready other).mp (front ▸ List.mem_cons_of_mem _ waits)
  refine { within := ?_, count := ?_, settled := ?_, distinct := ?_, ready := ?_ }
  · intro other remains
    exact tracks.within other (Graph.mem_unvisited.mp remains).1
  · intro other inSubset
    rw [countAfter, length_missingOf_unvisited inverts member inSubset,
      tracks.count other inSubset]
  · intro other inSubset gone
    have zero : pending.count other = 0 := by
      by_cases same : other = node
      · exact same ▸ none
      · exact tracks.settled other inSubset fun remains =>
          gone (Graph.mem_unvisited.mpr ⟨remains, by simpa using same⟩)
    simp [countAfter, zero]
  · rw [readyAfter, List.nodup_append]
    refine ⟨readyDistinct, distinctDependents.filter _, ?_⟩
    intro first waits second new same
    have positive :=
      (tracks.dependent_remaining inverts member (List.mem_filter.mp new).1).2
    exact Nat.ne_of_gt positive (same ▸ (stillReady waits).2)
  · intro other
    rw [readyAfter, countAfter, List.mem_append, List.mem_filter, Graph.mem_unvisited,
      List.mem_singleton, decide_eq_true_eq]
    -- Ready are the modules that were waiting and the dependents that missed only `node`.
    constructor
    · intro cases
      rcases cases with waits | ⟨depends, last⟩
      · obtain ⟨remains, zero⟩ := stillReady waits
        have different : other ≠ node := fun same => notReady (same ▸ waits)
        exact ⟨⟨remains, different⟩, by simp [zero]⟩
      · obtain ⟨remains, positive⟩ := tracks.dependent_remaining inverts member depends
        have different : other ≠ node := fun same =>
          Nat.ne_of_gt positive (same ▸ none)
        exact ⟨⟨remains, different⟩, by simpa [depends] using last⟩
    · intro waits
      obtain ⟨⟨remains, different⟩, zero⟩ := waits
      by_cases depends : other ∈ dependentsOf node
      · exact .inr ⟨depends, by simpa [depends] using zero⟩
      · have waiting := (tracks.ready other).mpr ⟨remains, by simpa [depends] using zero⟩
        rw [front] at waiting
        exact .inl ((List.mem_cons.mp waiting).resolve_left different)

/-- A module put before what is placed after it. -/
theorem Placed.cons {result : List String × List String}
    (placed : Placed dependenciesOf (Graph.unvisited [node] remaining) result)
    (member : node ∈ remaining)
    (free : ∀ target ∈ dependenciesOf node, target ∉ remaining) :
    Placed dependenciesOf remaining (node :: result.1, result.2) := by
  have absent : node ∉ result.1 := fun later =>
    (Graph.mem_unvisited.mp (placed.within node later)).2 (List.mem_singleton.mpr rfl)
  refine { distinct := ?_, within := ?_, left := ?_, dependenciesFirst := ?_, blocked := ?_ }
  · exact List.nodup_cons.mpr ⟨absent, placed.distinct⟩
  · intro other found
    rcases List.mem_cons.mp found with same | later
    · exact same ▸ member
    · exact (Graph.mem_unvisited.mp (placed.within other later)).1
  · rw [placed.left, Graph.unvisited, Graph.unvisited, Graph.unvisited, List.filter_filter]
    refine List.filter_congr ?_
    intro other _
    simp [Bool.and_comm]
  · intro before other after split target dependency remains
    cases before with
    | nil =>
        obtain ⟨rfl, -⟩ := List.cons.inj split
        exact absurd remains (free target dependency)
    | cons first before =>
        obtain ⟨rfl, rest⟩ := List.cons.inj split
        by_cases same : target = node
        · exact same ▸ List.mem_cons_self
        · refine List.mem_cons_of_mem _ ?_
          exact placed.dependenciesFirst before other after rest target dependency
            (Graph.mem_unvisited.mpr ⟨remains, by simpa using same⟩)
  · exact placed.blocked

end Step

/-- Placing puts every dependency before its dependents and leaves over only modules that wait
for one another. -/
theorem place_placed {subset remaining : List String} {pending : Pending}
    {dependenciesOf dependentsOf : String → List String}
    (inverts : Inverts subset dependenciesOf dependentsOf)
    (tracks : Tracks subset dependenciesOf remaining pending) :
    Placed dependenciesOf remaining (place dependentsOf remaining pending) := by
  induction remaining, pending using place.induct dependentsOf with
  | case1 remaining pending empty =>
      have stuck : place dependentsOf remaining pending = ([], remaining) := by
        rw [place]
        split
        next => rfl
        next node ready front => simp [empty] at front
      rw [stuck]
      refine ⟨.nil, by simp, by simp [Graph.unvisited], by simp, ?_⟩
      intro node remains
      have counted := tracks.count node (tracks.within node remains)
      have positive : pending.count node ≠ 0 := by
        intro zero
        simpa [empty] using (tracks.ready node).mpr ⟨remains, zero⟩
      obtain ⟨target, missing⟩ := List.exists_mem_of_length_pos
        (Nat.pos_of_ne_zero (counted ▸ positive))
      exact ⟨target, mem_missingOf.mp missing⟩
  | case2 remaining pending node ready front member settled induction =>
      have next : place dependentsOf remaining pending =
          (node :: (place dependentsOf (Graph.unvisited [node] remaining) settled).1,
            (place dependentsOf (Graph.unvisited [node] remaining) settled).2) := by
        rw [place]
        split
        next empty => simp [empty] at front
        next other rest found =>
          obtain ⟨rfl, rfl⟩ := List.cons.inj (front.symm.trans found)
          simp [member, settled]
      rw [next]
      refine (induction (tracks.step inverts front)).cons member ?_
      intro target dependency remains
      have none := ((tracks.ready node).mp (front ▸ List.mem_cons_self)).2
      rw [tracks.count node (tracks.within node member)] at none
      exact List.not_mem_nil
        (List.length_eq_zero_iff.mp none ▸ mem_missingOf.mpr ⟨dependency, remains⟩)
  | case3 remaining pending node ready front absent induction =>
      -- Only modules that remain are ready, so none is passed over.
      exact absurd ((tracks.ready node).mp (front ▸ List.mem_cons_self)).1 absent

end CodeAtlas.Ordering
