import CodeAtlas.Disk
import CodeAtlas.Json.Reader
import CodeAtlas.Json.Writer

/-!
# Problems

The reasons for which an operation on a project fails, and their messages.  A problem keeps what
was refused; how the libraries describe it is given from outside.
-/

namespace CodeAtlas

/-- What a missing or doubled thing is. -/
inductive Subject
  | language
  | module
  | moduleMatching
  | graph
  | learning
  | feature
  | plan
  | file
  | project
  | projectRoot
  | projectLanguage
  | registry
deriving DecidableEq, Repr

namespace Subject

def name : Subject → String
  | .language => "language"
  | .module => "module"
  | .moduleMatching => "module matching"
  | .graph => "graph"
  | .learning => "learning"
  | .feature => "feature"
  | .plan => "plan"
  | .file => "file"
  | .project => "project"
  | .projectRoot => "project root"
  | .projectLanguage => "project language"
  | .registry => "registry"

end Subject

/-- What a JSON text or value is read as. -/
inductive DocumentKind
  | value
  | graph
  | knowledge
  | learning
  | feature
  | plan
deriving DecidableEq, Repr

namespace DocumentKind

def name : DocumentKind → String
  | .value => "value"
  | .graph => "graph"
  | .knowledge => "knowledge"
  | .learning => "learning"
  | .feature => "feature"
  | .plan => "plan"

end DocumentKind

/-- A text or a value that is no document of the kind that it is read as. -/
inductive JsonFault
  | text (kind : DocumentKind) (text : String)
  | value (kind : DocumentKind) (value : Json)
deriving Repr

/-- What a TOML text is read as. -/
inductive TableKind
  | settings
  | registry
deriving DecidableEq, Repr

/-- A text that is no table of the kind that it is read as. -/
structure TomlFault where
  kind : TableKind
  text : String
deriving DecidableEq, Repr

/-- How the libraries that read JSON and TOML describe what they refuse. -/
structure Wording where
  json : JsonFault → String
  toml : TomlFault → String

namespace Wording

/-- Where in a text its first character stands that is no white space, as a line and a column, both
from one on. -/
def firstPlace (text : List Char) : Nat × Nat :=
  let blanks := text.takeWhile Json.Token.isSpace
  (blanks.count '\n' + 1, (blanks.reverse.takeWhile (· ≠ '\n')).length + 1)

/-- Whether a JSON value can begin with a character. -/
def beginsValue (c : Char) : Bool :=
  c.isDigit || ['"', '[', '{', '-', 't', 'f', 'n'].contains c

/-- A wording that tells what no JSON value begins with, and of all else what it should have
been. -/
def plain : Wording where
  json
    | .text kind text =>
        let (line, column) := firstPlace text.toList
        let at_ (column : Nat) := " at line " ++ toString line ++ " column " ++ toString column
        match text.toList.dropWhile Json.Token.isSpace with
        | [] => "EOF while parsing a value" ++ at_ (column - 1)
        | c :: _ =>
            if beginsValue c then "not a " ++ kind.name ++ " document"
            else "expected value" ++ at_ column
    | .value kind _ => "not a " ++ kind.name ++ " document"
  toml
    | ⟨.settings, _⟩ => "not a table of settings"
    | ⟨.registry, _⟩ => "not a table of projects"

end Wording

/-- What is wrong with learnings that an old graph document embeds. -/
inductive LegacyFault
  | notAnObject
  | unexpectedValue (value : Json)
  /-- An entry that does not decode, under its key if there is one. -/
  | badEntry (key : Option String) (value : Json)
  | unnamedEntry
deriving Repr

namespace LegacyFault

def message (wording : Wording) : LegacyFault → String
  | .notAnObject => "graph document is not an object"
  | .unexpectedValue value => "unexpected legacy knowledge value: " ++ value.compact
  | .badEntry key value =>
      "legacy learning " ++ key.getD "?" ++ ": " ++ wording.json (.value .learning value)
  | .unnamedEntry => "legacy learning without module_path"

end LegacyFault

/-- What is wrong with settings that are otherwise well formed. -/
inductive SettingsFault
  | emptyRunHistory
  | negativeEpsilon
deriving DecidableEq, Repr

namespace SettingsFault

def message : SettingsFault → String
  | .emptyRunHistory => "knowledge.run_history must be at least 1"
  | .negativeEpsilon => "search.epsilon must not be negative"

end SettingsFault

/-- Why an operation failed. -/
inductive Problem
  | notFound (subject : Subject) (name : String)
  | alreadyExists (subject : Subject) (name : String)
  | malformed (path : String) (fault : LegacyFault)
  | invalidSettings (fault : SettingsFault)
  | inputOutput (fault : DiskFault)
  | notJson (fault : JsonFault)
  | notToml (fault : TomlFault)
deriving Repr

namespace Problem

/-- The description of the error that a problem stands for, if it stands for one of the system or
of a library. -/
def source? (wording : Wording) : Problem → Option String
  | .inputOutput fault => some fault.message
  | .notJson fault => some (wording.json fault)
  | .notToml fault => some (wording.toml fault)
  | _ => none

def message (wording : Wording) : Problem → String
  | .notFound subject name => subject.name ++ " not found: " ++ name
  | .alreadyExists subject name => subject.name ++ " already exists: " ++ name
  | .malformed path fault => "failed to parse " ++ path ++ ": " ++ fault.message wording
  | .invalidSettings fault => "invalid configuration: " ++ fault.message
  | .inputOutput fault => "I/O error: " ++ fault.message
  | .notJson fault => "JSON error: " ++ wording.json fault
  | .notToml fault => "TOML error: " ++ wording.toml fault

/-- Whether something was looked for in vain. -/
def isNotFound : Problem → Bool
  | .notFound _ _ => true
  | _ => false

end Problem

end CodeAtlas
