import CodeAtlas.Graph.Dependencies

/-!
# The impact of a change

Which modules depend on a module, directly or through others, and how risky that makes a
change of it.
-/

namespace CodeAtlas

/-- How far a change reaches. -/
inductive Risk
  | low
  | medium
  | high
deriving DecidableEq, Repr

namespace Risk

/-- Low below two dependents and high above five. -/
def ofDependents (total : Nat) : Risk :=
  if total ≤ 1 then .low else if total ≤ 5 then .medium else .high

def name : Risk → String
  | .low => "LOW"
  | .medium => "MEDIUM"
  | .high => "HIGH"

end Risk

/-- The modules that a change of one module may break. -/
structure Impact where
  module : String
  /-- The dependents, in ascending order. -/
  direct : List String
  /-- The modules that depend on it only through others, in ascending order. -/
  indirect : List String
deriving DecidableEq, Repr

namespace Impact

def total (impact : Impact) : Nat := impact.direct.length + impact.indirect.length

def risk (impact : Impact) : Risk := .ofDependents impact.total

def toJson (impact : Impact) : Json :=
  .object [("module", .string impact.module), ("direct", .ofStrings impact.direct),
    ("indirect", .ofStrings impact.indirect), ("total", .ofNat impact.total),
    ("risk", .string impact.risk.name)]

end Impact

namespace Graph

/-- Those of some modules that depend on a member of the frontier. -/
def reaching (graph : Graph) (paths frontier : List String) : List String :=
  paths.filter fun path => (graph.dependencies path).any fun target => frontier.contains target

/-- The unvisited modules that reach the frontier: those that depend on a member of it, and in
turn those that reach them. -/
def spread (graph : Graph) (paths frontier : List String) : List String :=
  let next := graph.reaching paths frontier
  if _found : next = [] then []
  else next ++ spread graph (unvisited next paths) next
termination_by paths.length
decreasing_by
  obtain ⟨path, member⟩ := List.exists_mem_of_ne_nil _ _found
  exact length_unvisited_lt (List.mem_filter.mp member).1 member

/-- The impact of changing a module. -/
def impact (graph : Graph) (path : String) : Except Problem Impact :=
  if graph.contains path then
    let direct := graph.dependents path
    let others := unvisited (path :: direct) graph.modules.keys
    let reached := graph.spread others direct
    .ok ⟨path, direct, others.filter fun other => reached.contains other⟩
  else .error (.notFound .module path)

end Graph

end CodeAtlas
