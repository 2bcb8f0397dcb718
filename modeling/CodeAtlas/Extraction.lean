import CodeAtlas.Feature
import CodeAtlas.Search.Ranking

/-!
# Extracting features

A feature is extracted around a module: the module and all modules that it depends on, directly
or through others, with their external packages and references to their sources.
-/

namespace CodeAtlas

namespace Graph

theorem length_partition (test : String → Bool) (paths : List String) :
    (paths.partition test).1.length + (paths.partition test).2.length = paths.length := by
  rw [List.partition_eq_filter_filter]
  induction paths with
  | nil => rfl
  | cons path rest ih =>
      by_cases passes : test path <;> simp [passes] at ih ⊢ <;> omega

/-- The modules reached from a queue, in the order in which they are found.  `unseen` holds the
modules not yet found, in ascending order. -/
def discover (graph : Graph) (unseen queue : List String) : List String :=
  match queue with
  | [] => []
  | node :: waiting =>
      let isTarget := (graph.dependencies node).contains
      node :: discover graph (unseen.partition isTarget).2
        (waiting ++ (unseen.partition isTarget).1)
termination_by unseen.length + queue.length
decreasing_by
  have parts := length_partition (graph.dependencies node).contains unseen
  simp only [List.length_append, List.length_cons]
  omega

/-- A module and all modules that it depends on, nearer ones first. -/
def closure (graph : Graph) (path : String) : List String :=
  graph.discover (unvisited [path] graph.modules.keys) [path]

/-- The external packages of some modules in the order in which they first occur. -/
def packagesOf (graph : Graph) (paths : List String) : List String :=
  (paths.flatMap fun path => ((graph.module? path).map (·.externalDeps)).getD []).eraseDups

end Graph

/-- How a feature is extracted. -/
structure ExtractOptions where
  /-- Its name, or else the stem of the primary module. -/
  name : Option String
  /-- Whether the texts of its components are kept. -/
  snapshots : Bool

namespace Feature

/-- The text that each reference of a map names. -/
def loadAll (disk : Disk) (root : String) (references : Keyed CodeReference) :
    Except Problem (Keyed String) := do
  let texts ← references.entries.mapM fun entry => do
    return (entry.1, ← entry.2.load disk root)
  return .ofList texts

/-- The feature around a module. -/
def extract (graph : Graph) (disk : Disk) (root primary : String) (options : ExtractOptions)
    (now : Instant) : Except Problem Feature := do
  match graph.module? primary with
  | none => throw (.notFound .module primary)
  | some module =>
      let ordering := graph.order (graph.closure primary)
      let captured ← ordering.order.mapM fun path => do
        return (path, ← CodeReference.capture disk root path none)
      let codeRefs := Keyed.ofList captured
      let snapshots ←
        if options.snapshots then (loadAll disk root codeRefs).map some else pure none
      return {
        name := options.name.getD (Path.stem module.path)
        sourceProject := graph.project
        extractedAt := now
        primary
        components := ordering.order
        ordering := ordering.status
        requires := graph.packagesOf ordering.order
        provides := module.interfaces.map .ofInterface
        codeRefs
        snapshots }

/-- The feature around the module that matches a query best. -/
def extractMatching (graph : Graph) (disk : Disk) (root query : String)
    (options : ExtractOptions) (context : Search.Context) (now : Instant) :
    Except Problem Feature :=
  match graph.search context query 1 with
  | hit :: _ => extract graph disk root hit.item.path options now
  | [] => .error (.notFound .moduleMatching query)

end Feature

end CodeAtlas
