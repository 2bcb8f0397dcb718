import CodeAtlas.Path
import CodeAtlas.Problem

/-!
# Languages

The languages that projects are written in, how their files are recognised, and which kinds of
constructs a file may offer.
-/

namespace CodeAtlas

/-- What kind of construct an interface is. -/
inductive InterfaceKind
  | «class»
  | function
  | struct
  | enum
  | trait
  | interface
  | impl
  | macroRule
  | const
  | typeAlias
deriving DecidableEq, Repr

namespace InterfaceKind

def all : List InterfaceKind :=
  [.class, .function, .struct, .enum, .trait, .interface, .impl, .macroRule, .const, .typeAlias]

def name : InterfaceKind → String
  | .class => "class"
  | .function => "function"
  | .struct => "struct"
  | .enum => "enum"
  | .trait => "trait"
  | .interface => "interface"
  | .impl => "impl"
  | .macroRule => "macro"
  | .const => "const"
  | .typeAlias => "type_alias"

def ofName? (name : String) : Option InterfaceKind :=
  all.find? (·.name == name)

theorem ofName?_name (kind : InterfaceKind) : ofName? kind.name = some kind := by
  cases kind <;> cbv

end InterfaceKind

/-- A language that can be indexed. -/
inductive Language
  | python
  | rust
  | typeScript
  | javaScript
  | go
  | java
  | c
  | cpp
deriving DecidableEq, Repr

namespace Language

/-- All languages in the order that breaks ties. -/
def all : List Language :=
  [.python, .rust, .typeScript, .javaScript, .go, .java, .c, .cpp]

theorem mem_all (language : Language) : language ∈ all := by
  cases language <;> decide

def name : Language → String
  | .python => "python"
  | .rust => "rust"
  | .typeScript => "typescript"
  | .javaScript => "javascript"
  | .go => "go"
  | .java => "java"
  | .c => "c"
  | .cpp => "cpp"

def ofName? (name : String) : Option Language :=
  all.find? (·.name == name)

theorem ofName?_name (language : Language) : ofName? language.name = some language := by
  cases language <;> cbv

/-- The position in the order of languages. -/
def rank : Language → Nat
  | .python => 0
  | .rust => 1
  | .typeScript => 2
  | .javaScript => 3
  | .go => 4
  | .java => 5
  | .c => 6
  | .cpp => 7

/-- The names and short names that a person may give, in lower case. -/
def spellings : Language → List String
  | .python => ["python", "py"]
  | .rust => ["rust", "rs"]
  | .typeScript => ["typescript", "ts"]
  | .javaScript => ["javascript", "js"]
  | .go => ["go", "golang"]
  | .java => ["java"]
  | .c => ["c"]
  | .cpp => ["cpp", "c++", "cxx"]

/-- The language a person names, in letters of either case. -/
def ofSpelling (text : String) : Except Problem Language :=
  let lowered := Text.lowercaseAscii text
  match all.find? fun language => language.spellings.contains lowered with
  | some language => .ok language
  | none => .error (.notFound .language lowered)

/-- The endings of the file names of a language. -/
def extensions : Language → List String
  | .python => ["py", "pyi"]
  | .rust => ["rs"]
  | .typeScript => ["ts", "tsx", "mts", "cts"]
  | .javaScript => ["js", "jsx", "mjs", "cjs"]
  | .go => ["go"]
  | .java => ["java"]
  | .c => ["c", "h"]
  | .cpp => ["cpp", "cc", "cxx", "hpp", "hh", "hxx"]

/-- The language of a file, by its extension. -/
def ofPath? (path : String) : Option Language := do
  let extension ← Path.extension? path
  all.find? fun language => language.extensions.contains extension

/-- Whether files of a language belong to a project of another.  Projects of the typed script
language carry plain scripts, and those of the larger C family carry C. -/
def covers (project file : Language) : Bool :=
  project == file ||
    match project, file with
    | .typeScript, .javaScript => true
    | .cpp, .c => true
    | _, _ => false

/-- The kinds of constructs that files of the language offer. -/
def interfaceKinds : Language → List InterfaceKind
  | .python => [.class, .function, .const]
  | .rust => [.function, .struct, .enum, .trait, .impl, .macroRule, .const, .typeAlias]
  | .typeScript => [.class, .function, .interface, .enum, .const, .typeAlias]
  | .javaScript => [.class, .function, .const]
  | .go => [.function, .struct, .interface, .const, .typeAlias]
  | .java => [.class, .interface, .enum]
  | .c => [.function, .struct, .enum, .macroRule, .typeAlias]
  | .cpp => [.class, .function, .struct, .enum, .macroRule, .typeAlias]

/-- Whether a file of the language may offer a construct of this kind. -/
def admits (language : Language) (kind : InterfaceKind) : Bool :=
  language.interfaceKinds.contains kind

/-- The file that lists the external packages of a project. -/
def manifest : Language → String
  | .python => "requirements.txt"
  | .rust => "Cargo.toml"
  | .typeScript | .javaScript => "package.json"
  | .go => "go.mod"
  | .java => "pom.xml"
  | .c | .cpp => "CMakeLists.txt"

/-- How well the declarations of a language are read: from its syntax, or from the shapes of
its lines. -/
inductive Fidelity
  | syntactic
  | pattern
deriving DecidableEq, Repr

namespace Fidelity

def name : Fidelity → String
  | .syntactic => "syntax"
  | .pattern => "pattern"

end Fidelity

/-- How the files of a language are read. -/
def fidelity : Language → Fidelity
  | .python | .rust | .typeScript | .javaScript => .syntactic
  | .go | .java | .c | .cpp => .pattern

/-- The grammar that a file's syntax follows. -/
inductive Grammar
  | python
  | rust
  | typeScript
  | tsx
  | javaScript
deriving DecidableEq, Repr

namespace Grammar

def name : Grammar → String
  | .python => "Python"
  | .rust => "Rust"
  | .typeScript => "TypeScript"
  | .tsx => "Tsx"
  | .javaScript => "JavaScript"

/-- The grammar of a file, by its extension. -/
def ofPath? (path : String) : Option Grammar := do
  let extension ← Path.extension? path
  if extension == "tsx" then some .tsx
  else match ← Language.ofPath? path with
    | .python => some .python
    | .rust => some .rust
    | .typeScript => some .typeScript
    | .javaScript => some .javaScript
    | _ => none

end Grammar

end Language

end CodeAtlas
