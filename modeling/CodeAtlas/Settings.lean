import CodeAtlas.Json.Record
import CodeAtlas.Problem
import CodeAtlas.Toml.Reader

/-!
# Settings of a project

What a project may set: which files are indexed, how many runs are remembered, and how search
results are ranked.  Everything has a default, and settings that make no sense are refused.
-/

namespace CodeAtlas

/-- Which files are indexed. -/
structure IndexSettings where
  /-- Names of directories that are skipped in addition to the usual ones. -/
  extraExcludes : List String
  /-- Larger files are not read. -/
  maxFileBytes : Nat
deriving DecidableEq, Repr

/-- The weights of a ranking. -/
structure SearchSettings where
  /-- Added when the query stands as it is in the most telling field. -/
  substringBonus : Binary32
  /-- Added when an item is younger than a week. -/
  recentBonus : Binary32
  /-- Added when an item is younger than thirty days but not than a week. -/
  monthBonus : Binary32
  /-- Subtracted when the source of an item has changed. -/
  stalePenalty : Binary32
  /-- Items that score less are dropped. -/
  epsilon : Binary32
deriving DecidableEq, Repr

/-- The settings of a project. -/
structure Settings where
  index : IndexSettings
  /-- How many runs are remembered. -/
  runHistory : Nat
  search : SearchSettings
deriving DecidableEq, Repr

namespace IndexSettings

def default : IndexSettings := ⟨[], 1024 * 1024⟩

def ofJson? (value : Json) : Option IndexSettings := do
  let record ← value.record? ["extra_excludes", "max_file_bytes"]
  return {
    extraExcludes := ← record.defaulted "extra_excludes" [] Json.asStrings?
    maxFileBytes := ← record.defaulted "max_file_bytes" default.maxFileBytes Json.asNat64? }

end IndexSettings

namespace SearchSettings

/-- A number of hundredths. -/
def hundredths (count : Nat) : Binary32 := .ofRatio .single false count 100

def default : SearchSettings :=
  ⟨hundredths 50, hundredths 10, hundredths 5, hundredths 20, hundredths 1⟩

def ofJson? (value : Json) : Option SearchSettings := do
  let record ← value.record?
    ["substring_bonus", "recent_bonus", "month_bonus", "stale_penalty", "epsilon"]
  return {
    substringBonus := ← record.defaulted "substring_bonus" default.substringBonus Json.asSingle?
    recentBonus := ← record.defaulted "recent_bonus" default.recentBonus Json.asSingle?
    monthBonus := ← record.defaulted "month_bonus" default.monthBonus Json.asSingle?
    stalePenalty := ← record.defaulted "stale_penalty" default.stalePenalty Json.asSingle?
    epsilon := ← record.defaulted "epsilon" default.epsilon Json.asSingle? }

end SearchSettings

namespace Settings

/-- How many runs are remembered unless a project says otherwise. -/
def defaultRunHistory : Nat := 50

def default : Settings := ⟨.default, defaultRunHistory, .default⟩

def knowledgeOfJson? (value : Json) : Option Nat := do
  let record ← value.record? ["run_history"]
  record.defaulted "run_history" defaultRunHistory Json.asNat64?

def ofJson? (value : Json) : Option Settings := do
  let record ← value.record? ["index", "knowledge", "search"]
  return {
    index := ← record.defaulted "index" .default IndexSettings.ofJson?
    runHistory := ← record.defaulted "knowledge" defaultRunHistory knowledgeOfJson?
    search := ← record.defaulted "search" .default SearchSettings.ofJson? }

/-- Refuse a run history of nothing and a negative threshold. -/
def validate (settings : Settings) : Except Problem Settings :=
  if settings.runHistory = 0 then .error (.invalidSettings .emptyRunHistory)
  else if settings.search.epsilon.lt .zero then .error (.invalidSettings .negativeEpsilon)
  else .ok settings

/-- The settings of a document. -/
def ofToml (text : String) : Except Problem Settings :=
  match (Toml.ofText? text).bind ofJson? with
  | some settings => settings.validate
  | none => .error (.notToml ⟨.settings, text⟩)

end Settings

end CodeAtlas
