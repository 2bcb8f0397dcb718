import CodeAtlas.Command.Basic

/-!
# Usage

The text that explains the commands, made from their names and switches.
-/

namespace CodeAtlas.Command

namespace Switch

/-- A switch as it is written. -/
def usage (switch : Switch) : String :=
  let names := match switch.short with
    | some short => "-" ++ short.toString ++ ", --" ++ switch.long
    | none => "--" ++ switch.long
  match switch.arity with
  | .flag => names
  | .once _ => names ++ " <value>"
  | .repeated => names ++ " <value>..."

end Switch

namespace Verb

/-- What a command does. -/
def summary : Verb → String
  | .index => "Index the project and replace its dependency graph"
  | .find => "Search modules, or learnings with --knowledge"
  | .impact => "Show which modules depend on a module, directly or not"
  | .extract => "Package a module and its dependency closure as a feature"
  | .plan => "Plan how an extracted feature maps onto another project"
  | .learn => "Record what a module does"
  | .refresh => "Re-capture the source reference of a stale learning"
  | .stale => "List learnings whose source changed since they were recorded"
  | .migrate => "Move knowledge out of a legacy graph document"
  | .clear => "Remove the project's data directory"

/-- The other arguments of a command as they are written. -/
def operands : Verb → List String
  | .find => ["<query>"]
  | .impact | .refresh => ["<module>"]
  | .extract => ["[query]"]
  | .plan => ["<feature>"]
  | .learn => ["<module>", "<summary>"]
  | .index | .stale | .migrate | .clear => []

/-- The lines about a command: how it is written, what it does, and its switches. -/
def usage (verb : Verb) : List String :=
  ("  " ++ " ".intercalate (verb.name :: verb.operands)) ::
    ("      " ++ verb.summary) ::
    verb.switches.map fun switch => "      " ++ switch.usage

end Verb

/-- The whole text. -/
def usageText : String :=
  "\n".intercalate (["Usage: scion [options] <command>", "", "Commands:"] ++
    Verb.all.flatMap Verb.usage ++ ["", "Options:"] ++
    sharedSwitches.map (fun switch => "  " ++ switch.usage) ++
    ["  -h, --help", "  -V, --version"])

end CodeAtlas.Command
