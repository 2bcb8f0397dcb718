import CodeAtlas.Problem
import CodeAtlas.Text.Split

/-!
# Failures of commands

What a user is told when a command fails: what was being done, and the problem that stopped it.
-/

namespace CodeAtlas.Command

/-- What a command was doing when a problem arose. -/
inductive Circumstance
  | openingProject (root : String)
  | indexing
  | lookingForGraph
  | lookingForFeature (name : String)
  | readingRegistry (path : String)
  | lookingForTarget (project : String)
  | capturing (module : String)
  | readingKnowledge (project : String)
deriving DecidableEq, Repr

namespace Circumstance

def message : Circumstance → String
  | .openingProject root => "failed to open project at " ++ root
  | .indexing => "index run failed"
  | .lookingForGraph => "run `scion index` first"
  | .lookingForFeature name => "run `scion extract --name " ++ name ++ "` first"
  | .readingRegistry path => "failed to read registry " ++ path
  | .lookingForTarget project => "project " ++ project ++ " has not been indexed"
  | .capturing module => "cannot learn " ++ module
  | .readingKnowledge project => "failed to read knowledge for " ++ project

end Circumstance

/-- A text between quotation marks, its control characters visible. -/
def quoted (text : String) : String :=
  let shown (c : Char) : List Char :=
    if c = '"' then ['\\', '"']
    else if c = '\\' then ['\\', '\\']
    else if c = '\t' then ['\\', 't']
    else if c = '\n' then ['\\', 'n']
    else if c = '\r' then ['\\', 'r']
    else if c.toNat = 0 then ['\\', '0']
    else if c.toNat < 32 ∨ (127 ≤ c.toNat ∧ c.toNat < 160) then
      ['\\', 'u', '{'] ++ Nat.toDigits 16 c.toNat ++ ['}']
    else [c]
  String.ofList ('"' :: (text.toList.flatMap shown ++ ['"']))

/-- Why a command failed. -/
inductive Failure
  /-- Another project was named and no registry to find it in. -/
  | noRegistry (project : String)
  /-- Neither a module nor a query was given. -/
  | noSelection
  | stopped (problem : Problem) (circumstance : Option Circumstance)
deriving Repr

namespace Failure

/-- The first line of a report. -/
def message (wording : Wording) : Failure → String
  | .noRegistry project => "--registry is required to look up project " ++ quoted project
  | .noSelection => "give a search query or --from <module>"
  | .stopped problem none => problem.message wording
  | .stopped _ (some circumstance) => circumstance.message

/-- The messages of what is behind the first line, each the cause of the one before it. -/
def causes (wording : Wording) : Failure → List String
  | .stopped problem none => (problem.source? wording).toList
  | .stopped problem (some _) =>
      problem.message wording :: (problem.source? wording).toList
  | _ => []

/-- A text after a mark, its further lines below one another beside the mark. -/
def marked (mark : List Char) (text : String) : List Char :=
  mark ++ Text.joinWith ('\n' :: List.replicate mark.length ' ') (Text.splitOn '\n' text.toList)

/-- A cause with its number, which is set in five columns. -/
def numbered (cause : String × Nat) : List Char :=
  let digits := Nat.toDigits 10 cause.2
  marked (List.replicate (5 - digits.length) ' ' ++ digits ++ [':', ' ']) cause.1

/-- The lines of causes, with numbers if there are several. -/
def causeLines : List String → List (List Char)
  | [cause] => [marked "    ".toList cause]
  | causes => causes.zipIdx.map numbered

/-- What a user is told. -/
def report (wording : Wording) (failure : Failure) : String :=
  let causes := causeLines (failure.causes wording)
  "Error: " ++ failure.message wording ++
    if causes.isEmpty then ""
    else "\n\nCaused by:\n" ++ String.ofList (Text.joinWith ['\n'] causes)

end Failure

end CodeAtlas.Command
