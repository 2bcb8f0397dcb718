import CodeAtlas.Json.Record
import CodeAtlas.Language

/-!
# Modules, their interfaces and their edges

The structural summary of one source file, the named constructs it offers, and the directed
dependencies between files, each with its JSON document.
-/

namespace CodeAtlas

/-- Lines are counted in 32 bits. -/
def lineNumber (count : Nat) : Nat := count % Nat.pow 2 32

/-- A named construct that a module offers. -/
structure Interface where
  name : String
  kind : InterfaceKind
  signature : String
  doc : String
  /-- Methods, fields or variants in the order of the source. -/
  members : List String
  /-- The line it begins on; the first line is 1. -/
  line : Nat
deriving DecidableEq, Repr

namespace InterfaceKind

def toJson (kind : InterfaceKind) : Json := .string kind.name

def ofJson? (value : Json) : Option InterfaceKind := do
  ofName? (← value.asChoice?)

end InterfaceKind

namespace Language

def toJson (language : Language) : Json := .string language.name

def ofJson? (value : Json) : Option Language := do
  ofName? (← value.asChoice?)

end Language

/-- A member that is left out when its list is empty. -/
def Json.nonEmptyStrings (name : String) (texts : List String) : List (String × Json) :=
  if texts.isEmpty then [] else [(name, .ofStrings texts)]

namespace Interface

def toJson (interface : Interface) : Json :=
  .object ([("name", .string interface.name), ("kind", interface.kind.toJson),
    ("signature", .string interface.signature), ("doc", .string interface.doc)] ++
    Json.nonEmptyStrings "members" interface.members ++ [("line", .ofNat interface.line)])

def ofJson? (value : Json) : Option Interface := do
  let record ← value.record? ["name", "kind", "signature", "doc", "members", "line"]
  return {
    name := ← record.required "name" Json.asString?
    kind := ← record.required "kind" InterfaceKind.ofJson?
    signature := ← record.required "signature" Json.asString?
    doc := ← record.defaulted "doc" "" Json.asString?
    members := ← record.defaulted "members" [] Json.asStrings?
    line := ← record.required "line" Json.asNat32? }

end Interface

/-- Which form of import an edge comes from. -/
inductive EdgeKind
  | importStatement
  | fromImport
  | useDeclaration
  | modDeclaration
  | requireCall
  | includeDirective
deriving DecidableEq, Repr

namespace EdgeKind

def all : List EdgeKind :=
  [.importStatement, .fromImport, .useDeclaration, .modDeclaration, .requireCall,
    .includeDirective]

def name : EdgeKind → String
  | .importStatement => "import"
  | .fromImport => "from_import"
  | .useDeclaration => "use"
  | .modDeclaration => "mod"
  | .requireCall => "require"
  | .includeDirective => "include"

def ofName? (name : String) : Option EdgeKind :=
  all.find? (·.name == name)

theorem ofName?_name (kind : EdgeKind) : ofName? kind.name = some kind := by
  cases kind <;> cbv

def toJson (kind : EdgeKind) : Json := .string kind.name

def ofJson? (value : Json) : Option EdgeKind := do
  ofName? (← value.asChoice?)

end EdgeKind

/-- A dependency of a module on another module or on an external package. -/
structure Edge where
  source : String
  /-- The path of a module, or else the name of a package. -/
  target : String
  kind : EdgeKind
  /-- The names that the import brings in. -/
  specifics : List String
deriving DecidableEq, Repr

namespace Edge

def toJson (edge : Edge) : Json :=
  .object ([("source", .string edge.source), ("target", .string edge.target),
    ("kind", edge.kind.toJson)] ++ Json.nonEmptyStrings "specifics" edge.specifics)

def ofJson? (value : Json) : Option Edge := do
  let record ← value.record? ["source", "target", "kind", "specifics"]
  return {
    source := ← record.required "source" Json.asString?
    target := ← record.required "target" Json.asString?
    kind := ← record.required "kind" EdgeKind.ofJson?
    specifics := ← record.defaulted "specifics" [] Json.asStrings? }

end Edge

/-- The summary of one source file. -/
structure Module where
  path : String
  language : Language
  lines : Nat
  summary : String
  interfaces : List Interface
  internalDeps : List String
  externalDeps : List String
deriving DecidableEq, Repr

namespace Module

/-- A module of which only path and language are known. -/
def new (path : String) (language : Language) : Module :=
  ⟨path, language, 0, "", [], [], []⟩

/-- The first interface of a name. -/
def interface? (module : Module) (name : String) : Option Interface :=
  module.interfaces.find? (·.name == name)

def toJson (module : Module) : Json :=
  .object [("path", .string module.path), ("language", module.language.toJson),
    ("lines", .ofNat module.lines), ("summary", .string module.summary),
    ("interfaces", .array (module.interfaces.map Interface.toJson)),
    ("internal_deps", .ofStrings module.internalDeps),
    ("external_deps", .ofStrings module.externalDeps)]

def ofJson? (value : Json) : Option Module := do
  let record ← value.record?
    ["path", "language", "lines", "summary", "interfaces", "internal_deps", "external_deps"]
  return {
    path := ← record.required "path" Json.asString?
    language := ← record.required "language" Language.ofJson?
    lines := ← record.required "lines" Json.asNat32?
    summary := ← record.required "summary" Json.asString?
    interfaces := ← record.required "interfaces" (Json.asList? Interface.ofJson?)
    internalDeps := ← record.required "internal_deps" Json.asStrings?
    externalDeps := ← record.required "external_deps" Json.asStrings? }

end Module

end CodeAtlas
