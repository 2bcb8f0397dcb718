import CodeAtlas.Module
import CodeAtlas.Toml.Reader

/-!
# Registries of projects

Where projects lie and in which language they are declared, by their names.
-/

namespace CodeAtlas

/-- A registered project. -/
structure ProjectEntry where
  root : String
  language : Option Language
deriving DecidableEq, Repr

namespace ProjectEntry

/-- The name of a language, or a table that holds nothing but an empty one under that name. -/
def languageOfJson? : Json → Option Language
  | .string name => Language.ofName? name
  | .object ((name, .object []) :: _) | .object ((name, .array []) :: _) =>
      Language.ofName? name
  | _ => none

def ofJson? (value : Json) : Option ProjectEntry := do
  let record ← value.record? ["root", "language"]
  return {
    root := ← record.required "root" Json.asString?
    language := ← record.defaulted "language" none fun value =>
      (languageOfJson? value).map some }

end ProjectEntry

/-- The registered projects by name. -/
structure Registry where
  projects : Keyed ProjectEntry

namespace Registry

/-- The registry of a document. -/
def ofToml (text : String) : Except Problem Registry :=
  let decoded := do
    let record ← (← Toml.ofText? text).record? ["projects"]
    record.defaulted "projects" .empty (Json.asKeyed? ProjectEntry.ofJson?)
  match decoded with
  | some projects => .ok ⟨projects⟩
  | none => .error (.notToml ⟨.registry, text⟩)

/-- The names in ascending order. -/
def names (registry : Registry) : List String := registry.projects.keys

def size (registry : Registry) : Nat := registry.projects.size

def project (registry : Registry) (name : String) : Except Problem ProjectEntry :=
  match registry.projects.get? name with
  | some entry => .ok entry
  | none => .error (.notFound .project name)

end Registry

end CodeAtlas
