import CodeAtlas.Module
import CodeAtlas.Text.Split

/-!
# Outlines of source files

What is read from the text of one file: a line of summary, the imports as they are written, and
the declarations at its top level.
-/

namespace CodeAtlas

/-- One import as it is written. -/
structure Import where
  /-- The path, name or specifier after the keyword. -/
  module : String
  localName : Option String
  /-- The names brought in. -/
  names : List String
  /-- The dots at the beginning of a relative import. -/
  level : Nat
  kind : EdgeKind
  line : Nat
deriving DecidableEq, Repr

namespace Import

/-- An import that brings in a module and no names. -/
def new (module : String) (kind : EdgeKind) (line : Nat) : Import :=
  ⟨module, none, [], 0, kind, line⟩

end Import

/-- What a declaration is beyond its kind. -/
inductive DeclarationDetail
  | classBases (bases : List String)
  | functionAsync (isAsync : Bool)
  | implTrait (name : Option String)
  | plain
deriving DecidableEq, Repr

/-- A declaration at the top level of a file. -/
structure Declaration where
  name : String
  kind : InterfaceKind
  signature : String
  doc : String
  members : List String
  line : Nat
  detail : DeclarationDetail
deriving DecidableEq, Repr

namespace Declaration

/-- The interface that a declaration offers. -/
def toInterface (declaration : Declaration) : Interface :=
  ⟨declaration.name, declaration.kind, declaration.signature, declaration.doc,
    declaration.members, lineNumber declaration.line⟩

end Declaration

/-- What a reader finds in a file. -/
structure Outline where
  summary : String
  imports : List Import
  declarations : List Declaration
  lineCount : Nat
deriving DecidableEq, Repr

namespace Outline

/-- The greatest length of a line of summary. -/
def summaryLimit : Nat := 120

/-- How many lines a text has. -/
def countLines (source : List Char) : Nat := (Text.lines source).length

/-- The first line of a documentation text that is not blank, cut to the limit. -/
def firstDocLine (doc : List Char) : List Char :=
  let lines := (Text.lines doc).map Text.trim
  ((lines.find? fun line => !line.isEmpty).getD []).take summaryLimit

/-- The first three declared names in a sentence; implementations have no name of their own. -/
def definesLine (declarations : List Declaration) : List Char :=
  let named := declarations.filter fun declaration => declaration.kind != .impl
  let names := (named.take 3).map (·.name)
  if names.isEmpty then []
  else ("Defines " ++ ", ".intercalate names).toList.take summaryLimit

/-- The summary of a file: its documentation, or else what it defines. -/
def summarize (doc : List Char) (declarations : List Declaration) : String :=
  let line := firstDocLine doc
  String.ofList (if line.isEmpty then definesLine declarations else line)

/-- The outline of a source with its documentation, imports and declarations. -/
def ofParts (source doc : List Char) (imports : List Import)
    (declarations : List Declaration) : Outline :=
  ⟨summarize doc declarations, imports, declarations, countLines source⟩

end Outline

end CodeAtlas
