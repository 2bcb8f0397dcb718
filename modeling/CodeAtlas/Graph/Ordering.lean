import CodeAtlas.Graph.Dependencies

/-!
# Dependency-first orders

An order of some modules in which the dependencies of a module precede it.  Modules are placed
one by one, each when the last of its dependencies among them is placed.  Modules on a cycle,
and those that depend on one, cannot be placed; they are appended in the order in which they
were given.
-/

namespace CodeAtlas

/-- Whether an order has every dependency before its dependents, or which modules had to be
appended. -/
inductive Ordering.Status
  | complete
  | degraded (appended : List String)
deriving DecidableEq, Repr

namespace Ordering.Status

def isComplete : Status → Bool
  | .complete => true
  | .degraded _ => false

def toJson : Status → Json
  | .complete => .object [("status", .string "complete")]
  | .degraded appended =>
      .object [("status", .string "degraded"), ("appended", .ofStrings appended)]

/-- The status of a tag and the value that follows it in an array. -/
def ofTag? (tag : Json) (rest : List Json) : Option Status := do
  let name ← tag.asString?
  if name == "complete" then
    if rest.isEmpty then some .complete else none
  else if name == "degraded" then
    match rest with
    | [appended] => (appended.asStrings?).map .degraded
    | _ => none
  else none

/-- A status is an object with its tag under `status`, or an array that begins with the tag. -/
def ofJson? (value : Json) : Option Status :=
  if !value.isReadable then none
  else match value with
    | .object members => do
        let record ← value.record? ["status"]
        let name ← record.required "status" Json.asString?
        if name == "complete" then some .complete
        else if name == "degraded" then
          let others := Json.object (members.filter fun member => member.1 != "status")
          (← others.record? ["appended"]).required "appended" Json.asStrings? |>.map .degraded
        else none
    | .array (tag :: rest) => ofTag? tag rest
    | _ => none

end Ordering.Status

/-- An order of modules and how good it is. -/
structure Ordering where
  order : List String
  status : Ordering.Status
deriving DecidableEq, Repr

namespace Ordering

/-- The state of placing: the modules not yet placed, those ready to be placed, and for each
module how many of its dependencies are missing. -/
structure Pending where
  missing : List (String × Nat)
  ready : List String
deriving Repr

/-- One dependency of a module has been placed.  A module without missing dependencies is
ready. -/
def Pending.settle (pending : Pending) (dependent : String) : Pending :=
  let left := (pending.missing.lookup dependent).getD 0 - 1
  ⟨(dependent, left) :: pending.missing.filter (·.1 != dependent),
    if left = 0 then pending.ready ++ [dependent] else pending.ready⟩

/-- Place the modules that are ready, in their order; the modules never ready are left over. -/
def place (dependentsOf : String → List String) (remaining : List String) (pending : Pending) :
    List String × List String :=
  match _front : pending.ready with
  | [] => ([], remaining)
  | node :: ready =>
      if _member : node ∈ remaining then
        let settled := (dependentsOf node).foldl Pending.settle ⟨pending.missing, ready⟩
        let placed := place dependentsOf (Graph.unvisited [node] remaining) settled
        (node :: placed.1, placed.2)
      else place dependentsOf remaining ⟨pending.missing, ready⟩
termination_by (remaining.length, pending.ready.length)
decreasing_by
  · exact Prod.Lex.left _ _ (Graph.length_unvisited_lt _member (by simp))
  · exact Prod.Lex.right _ (by simp [_front])

end Ordering

namespace Graph

/-- The dependencies of a module among the members of a list. -/
def dependenciesWithin (graph : Graph) (subset : List String) (path : String) : List String :=
  (graph.dependencies path).filter fun target => subset.contains target && target != path

/-- A dependency-first order of some modules. -/
def order (graph : Graph) (subset : List String) : Ordering :=
  let needs := subset.map fun path => (path, graph.dependenciesWithin subset path)
  let dependentsOf (node : String) : List String :=
    (needs.filter fun entry => entry.2.contains node).map (·.1)
  let missing := needs.map fun entry => (entry.1, entry.2.length)
  let ready := (needs.filter fun entry => entry.2.isEmpty).map (·.1)
  let placed := Ordering.place dependentsOf subset ⟨missing, ready⟩
  if placed.2.isEmpty then ⟨placed.1, .complete⟩
  else ⟨placed.1 ++ placed.2, .degraded placed.2⟩

end Graph

end CodeAtlas
