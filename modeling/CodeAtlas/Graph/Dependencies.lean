import CodeAtlas.Graph.Basic

/-!
# The dependency relation of a graph

Of two different modules the first depends on the second when an edge leads from it to the
other.  Parallel edges count once; self edges and edges to packages do not count.  For looking up
dependencies from both sides the modules get numbers, and the edges between them become links
between numbers.
-/

namespace CodeAtlas.Graph

/-- The paths of a list that are not among the visited ones. -/
def unvisited (visited paths : List String) : List String :=
  paths.filter fun path => !visited.contains path

@[simp] theorem mem_unvisited {visited paths : List String} {path : String} :
    path ∈ unvisited visited paths ↔ path ∈ paths ∧ path ∉ visited := by
  simp [unvisited]

theorem length_unvisited_lt {visited paths : List String} {path : String}
    (member : path ∈ paths) (seen : path ∈ visited) :
    (unvisited visited paths).length < paths.length :=
  List.length_filter_lt_length_iff_exists.mpr ⟨path, member, by simpa using seen⟩

/-- Whether an edge leads from one module to another, different module. -/
def dependsOn (graph : Graph) (source target : String) : Bool :=
  graph.contains source && graph.contains target && source != target &&
    graph.edges.any fun edge => edge.source == source && edge.target == target

/-- The modules that a module depends on, in ascending order. -/
def dependencies (graph : Graph) (path : String) : List String :=
  let targets := (graph.edgesFrom path).map (·.target)
  if graph.contains path then
    graph.modules.keys.filter fun target => target != path && targets.contains target
  else []

/-- The modules that depend on a module, in ascending order. -/
def dependents (graph : Graph) (path : String) : List String :=
  let sources := (graph.edgesTo path).map (·.source)
  if graph.contains path then
    graph.modules.keys.filter fun source => source != path && sources.contains source
  else []

theorem mem_dependencies_iff {graph : Graph} {source target : String} :
    target ∈ graph.dependencies source ↔
      graph.contains source ∧ target ∈ graph.modules.keys ∧ target ≠ source ∧
        ∃ edge ∈ graph.edges, edge.source = source ∧ edge.target = target := by
  unfold dependencies edgesFrom
  split
  next known =>
    simp only [List.mem_filter, Bool.and_eq_true, bne_iff_ne, ne_eq, List.contains_iff_mem,
      List.mem_map, beq_iff_eq, known, true_and]
    grind
  next unknown => simp [unknown]

/-! ## Views -/

/-- Numbered modules and the links between their numbers. -/
structure View where
  /-- The modules in the order of their numbers. -/
  nodes : List String
  /-- The number of each module. -/
  index : Keyed Nat
  /-- The linked pairs of numbers, each of them once. -/
  links : List (Nat × Nat)

namespace View

/-- Which ends of the links of a module are looked for. -/
inductive Direction
  | outgoing
  | incoming
deriving DecidableEq, Repr

def empty : View := ⟨[], .empty, []⟩

/-- Give a module the next number. -/
def addNode (view : View) (path : String) : View :=
  { view with
    nodes := view.nodes ++ [path]
    index := view.index.insert path view.nodes.length }

/-- Link two numbers, unless they are linked already. -/
def link (view : View) (source target : Nat) : View :=
  if (source, target) ∈ view.links then view
  else { view with links := (source, target) :: view.links }

/-- Link the ends of an edge if both have numbers, and different ones. -/
def addEdge (view : View) (edge : Edge) : View :=
  match view.index.get? edge.source, view.index.get? edge.target with
  | some source, some target => if source = target then view else view.link source target
  | _, _ => view

def contains (view : View) (path : String) : Bool := view.index.contains path

/-- How many pairs of modules are linked. -/
def edgeCount (view : View) : Nat := view.links.length

/-- The numbers that a number is linked with. -/
def linked (view : View) (number : Nat) : Direction → List Nat
  | .outgoing => (view.links.filter (·.1 == number)).map (·.2)
  | .incoming => (view.links.filter (·.2 == number)).map (·.1)

/-- The modules that a module is linked with, in ascending order. -/
def neighbors (view : View) (path : String) (direction : Direction) : List String :=
  match view.index.get? path with
  | some number =>
      let paths := (view.linked number direction).filterMap (view.nodes[·]?)
      (Keyed.ofList (paths.map fun path => (path, ()))).keys
  | none => []

/-- The modules that a module depends on. -/
def dependencies (view : View) (path : String) : List String := view.neighbors path .outgoing

/-- The modules that depend on a module. -/
def dependents (view : View) (path : String) : List String := view.neighbors path .incoming

end View

/-- The view of a graph: all modules, and links for the edges that lead to modules. -/
def view (graph : Graph) : View :=
  graph.internalEdges.foldl View.addEdge (graph.modules.keys.foldl View.addNode .empty)

end CodeAtlas.Graph
