import CodeAtlas.Command.Switch
import CodeAtlas.Language
import CodeAtlas.Text.Digits

/-!
# Commands

What a user can ask for, and the arguments that ask for it.  Some switches can stand before the
name of the command as well as after it; the value given after it counts.
-/

namespace CodeAtlas

/-- What a learning is made of when a user gives it. -/
structure LearnRequest where
  module : String
  summary : String
  purpose : Option String
  /-- Each a name and a description with an equals sign between them. -/
  functions : List String
  gotchas : List String
  /-- Whether the learning replaces another. -/
  relearn : Bool
deriving DecidableEq, Repr

/-- Which module a feature is extracted around. -/
inductive Selection
  | module (path : String)
  | bestMatch (query : String)
  | unspecified
deriving DecidableEq, Repr

/-- What a user can ask for. -/
inductive Command
  | index (language : Option Language) (project : Option String)
  | find (query : String) (knowledge : Bool) (limit : Nat)
  | impact (module : String)
  | extract (selection : Selection) (name : Option String) (snapshots : Bool)
  | plan (feature target : String)
  | learn (request : LearnRequest)
  | refresh (module : String)
  | stale
  | migrate
  | clear
deriving DecidableEq, Repr

/-- A command, the root of the project, and the registry of other projects. -/
structure Invocation where
  command : Command
  root : String
  registry : Option String
deriving DecidableEq, Repr

namespace Command

/-- The names of the commands. -/
inductive Verb
  | index
  | find
  | impact
  | extract
  | plan
  | learn
  | refresh
  | stale
  | migrate
  | clear
deriving DecidableEq, Repr

namespace Verb

def all : List Verb :=
  [.index, .find, .impact, .extract, .plan, .learn, .refresh, .stale, .migrate, .clear]

def name : Verb → String
  | .index => "index"
  | .find => "find"
  | .impact => "impact"
  | .extract => "extract"
  | .plan => "plan"
  | .learn => "learn"
  | .refresh => "refresh"
  | .stale => "stale"
  | .migrate => "migrate"
  | .clear => "clear"

def ofName? (name : String) : Option Verb := all.find? (·.name == name)

end Verb

/-- Hits that are shown unless a user says otherwise. -/
def defaultLimit : Nat := 10

/-- A number of at most 64 bits: digits, which a plus sign may precede. -/
def limitOf? (text : String) : Option Nat :=
  let digits := match text.toList with
    | '+' :: rest => rest
    | characters => characters
  if digits.isEmpty || !digits.all Char.isDigit then none
  else
    let value := Text.natural digits
    if value < Nat.pow 2 64 then some value else none

/-- The language that a user names. -/
def languageOf? (text : String) : Option Language := (Language.ofSpelling text).toOption

/-- A switch that takes any text once. -/
def textSwitch (long : String) (short : Option Char) : Switch := ⟨long, short, .once fun _ => true⟩

/-- A switch that takes a path once. -/
def pathSwitch (long : String) (short : Option Char) : Switch :=
  ⟨long, short, .once fun text => text != ""⟩

/-- The switches of all commands. -/
def sharedSwitches : List Switch :=
  [⟨"verbose", some 'v', .flag⟩, pathSwitch "root" (some 'r'), pathSwitch "registry" none]

namespace Verb

/-- The switches of a command. -/
def switches : Verb → List Switch
  | .index =>
      [⟨"language", some 'l', .once fun text => (languageOf? text).isSome⟩,
        textSwitch "project" (some 'p')]
  | .find =>
      [⟨"knowledge", some 'k', .flag⟩,
        ⟨"limit", some 'l', .once fun text => (limitOf? text).isSome⟩]
  | .extract =>
      [textSwitch "from" none, textSwitch "name" (some 'n'), ⟨"snapshots", none, .flag⟩]
  | .plan => [textSwitch "target" (some 't')]
  | .learn =>
      [textSwitch "purpose" none, ⟨"function", none, .repeated⟩, ⟨"gotcha", none, .repeated⟩,
        ⟨"relearn", none, .flag⟩]
  | .impact | .refresh | .stale | .migrate | .clear => []

/-- How many other arguments a command takes at most. -/
def mostPositional : Verb → Nat
  | .learn => 2
  | .find | .impact | .extract | .plan | .refresh => 1
  | .index | .stale | .migrate | .clear => 0

/-- The command with what is given, if nothing is lacking and nothing contradicts. -/
def command? (verb : Verb) (given : Given) : Option Command :=
  match verb, given.positional with
  | .index, [] =>
      some (.index ((given.value? "language").bind languageOf?) (given.value? "project"))
  | .find, [query] =>
      some (.find query (given.has "knowledge")
        (((given.value? "limit").bind limitOf?).getD defaultLimit))
  | .impact, [module] => some (.impact module)
  | .extract, positional => do
      let selection ← match given.value? "from", positional with
        | some module, [] => some (.module module)
        | some _, _ => none
        | none, [query] => some (.bestMatch query)
        | none, _ => some .unspecified
      return .extract selection (given.value? "name") (given.has "snapshots")
  | .plan, [feature] => (given.value? "target").map fun target => .plan feature target
  | .learn, [module, summary] =>
      some (.learn {
        module, summary
        purpose := given.value? "purpose"
        functions := given.values "function"
        gotchas := given.values "gotcha"
        relearn := given.has "relearn" })
  | .refresh, [module] => some (.refresh module)
  | .stale, [] => some .stale
  | .migrate, [] => some .migrate
  | .clear, [] => some .clear
  | _, _ => none

end Verb

/-- The name under which help is asked for as if it were a command. -/
def helpName : String := "help"

/-- What asking for help on a command comes to. -/
def helpOn : List String → Stop
  | [] => .help
  | [name] => if name == helpName || (Verb.ofName? name).isSome then .help else .misuse
  | _ => .misuse

end Command

namespace Invocation

open Command

/-- The root unless a user says otherwise: the working directory. -/
def defaultRoot : String := "."

/-- What arguments ask for. -/
def ofArguments (arguments : List String) : Except Stop Invocation := do
  let (outer, rest) ← (Reading.start sharedSwitches 0 true).readBefore arguments
  match rest with
  | [] => throw .misuse
  | name :: rest =>
      if name == helpName then throw (helpOn rest)
      match Verb.ofName? name with
      | none => throw .misuse
      | some verb =>
          let reading := Reading.start (verb.switches ++ sharedSwitches) verb.mostPositional false
          let inner ← reading.readAll rest
          let shared (long : String) : Option String := (inner.value? long).or (outer.value? long)
          match verb.command? inner with
          | none => throw .misuse
          | some command =>
              return ⟨command, (shared "root").getD defaultRoot, shared "registry"⟩

end Invocation

end CodeAtlas
