import CodeAtlas.Instant
import CodeAtlas.Module

/-!
# Dependency graphs

The modules of a project and the edges between them.  An edge leads to a module exactly when
its target is the path of one; any other target is an external package.
-/

namespace CodeAtlas

namespace Instant

def toJson (instant : Instant) : Json := .string instant.text

def ofJson? (value : Json) : Option Instant := do
  ofText? (← value.asString?)

end Instant

/-- The dependency graph of a project. -/
structure Graph where
  project : String
  version : Nat
  indexedAt : Instant
  modules : Keyed Module
  edges : List Edge
deriving DecidableEq

/-- A broken agreement between dependencies and edges. -/
inductive Violation
  | missingEdge (module target : String)
  | unknownDependency (module target : String)
  | unknownSource (source : String)
deriving DecidableEq, Repr

namespace Graph

/-- The version of the document that graphs are written in. -/
def documentVersion : Nat := 1

/-- A graph without modules. -/
def new (project : String) (now : Instant) : Graph :=
  ⟨project, documentVersion, now, .empty, []⟩

/-- Put a module in, replacing one of the same path. -/
def insertModule (graph : Graph) (module : Module) : Graph :=
  { graph with modules := graph.modules.insert module.path module }

def addEdge (graph : Graph) (edge : Edge) : Graph :=
  { graph with edges := graph.edges ++ [edge] }

def module? (graph : Graph) (path : String) : Option Module :=
  graph.modules.get? path

/-- Whether a target or path is a module. -/
def contains (graph : Graph) (path : String) : Bool :=
  graph.modules.contains path

/-- Edges that lead to a module. -/
def internalEdges (graph : Graph) : List Edge :=
  graph.edges.filter fun edge => graph.contains edge.target

/-- Edges that lead to an external package. -/
def externalEdges (graph : Graph) : List Edge :=
  graph.edges.filter fun edge => !graph.contains edge.target

def edgesFrom (graph : Graph) (source : String) : List Edge :=
  graph.edges.filter (·.source == source)

def edgesTo (graph : Graph) (target : String) : List Edge :=
  graph.edges.filter (·.target == target)

/-- All external packages in ascending order. -/
def externalPackages (graph : Graph) : List String :=
  (Keyed.ofList ((graph.modules.values.flatMap (·.externalDeps)).map fun package =>
    (package, ()))).keys

/-- An interface and the path of its module. -/
structure Location where
  module : String
  interface : Interface
deriving DecidableEq, Repr

/-- All interfaces in the order of the modules. -/
def locations (graph : Graph) : List Location :=
  graph.modules.values.flatMap fun module =>
    module.interfaces.map fun interface => ⟨module.path, interface⟩

/-- The interfaces grouped by their names in lower case. -/
def interfaceIndex (graph : Graph) : Keyed (List Location) :=
  graph.locations.foldl (fun index location =>
    let name := Text.lowercase location.interface.name
    index.insert name ((index.get? name).getD [] ++ [location])) .empty

/-- The language of most modules; of equally common ones the first in the order of languages. -/
def dominantLanguage? (graph : Graph) : Option Language :=
  let count (language : Language) : Nat :=
    graph.modules.values.countP fun module => decide (module.language = language)
  (Language.all.foldl (fun best language =>
    if count language = 0 then best
    else match best with
      | some leader => if count language ≤ count leader then best else some language
      | none => some language) none)

/-- The disagreements between dependencies and edges: first those of the modules in their
order, then those of the edges. -/
def violations (graph : Graph) : List Violation :=
  (graph.modules.values.flatMap fun module =>
    module.internalDeps.filterMap fun target =>
      if !graph.contains target then some (.unknownDependency module.path target)
      else if !(graph.edgesFrom module.path).any (·.target == target) then
        some (.missingEdge module.path target)
      else none) ++
  graph.edges.filterMap fun edge =>
    if graph.contains edge.source then none else some (.unknownSource edge.source)

/-- Whether two graphs are of one project with equal modules and edges. -/
def sameStructure (first second : Graph) : Bool :=
  first.project == second.project && decide (first.modules = second.modules) &&
    first.edges == second.edges

def toJson (graph : Graph) : Json :=
  .object [("project", .string graph.project), ("version", .ofNat graph.version),
    ("indexed_at", graph.indexedAt.toJson), ("modules", .ofKeyed Module.toJson graph.modules),
    ("edges", .array (graph.edges.map Edge.toJson))]

def ofJson? (value : Json) : Option Graph := do
  let record ← value.record? ["project", "version", "indexed_at", "modules", "edges"]
  return {
    project := ← record.required "project" Json.asString?
    version := ← record.required "version" Json.asNat32?
    indexedAt := ← record.required "indexed_at" Instant.ofJson?
    modules := ← record.required "modules" (Json.asKeyed? Module.ofJson?)
    edges := ← record.required "edges" (Json.asList? Edge.ofJson?) }

end Graph

end CodeAtlas
