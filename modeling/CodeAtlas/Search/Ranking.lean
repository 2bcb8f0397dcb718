import CodeAtlas.Graph.Basic
import CodeAtlas.Knowledge
import CodeAtlas.Search.Token

/-!
# Ranked search

Modules and learnings ranked by how well they match a query: the overlap of tokens in each field
by the weight of the field, a bonus if the query stands as it is in the most telling field, a
bonus for what is young, a penalty for what is stale, and all of it by the confidence.
-/

namespace CodeAtlas

namespace Search

/-- What a ranking looks at. -/
structure Profile where
  /-- The texts that are searched, with their weights. -/
  fields : List (Binary32 × String)
  /-- The most telling text. -/
  salient : String
  updatedAt : Option Instant
  isStale : Bool
  confidence : Option Binary32

/-- How a ranking is made. -/
structure Context where
  settings : SearchSettings
  now : Instant

/-- The share of the tokens of two texts that both have. -/
def overlap (first second : List String) : Binary32 :=
  let common := (first.filter second.contains).length
  let all := first.length + (second.filter fun token => !first.contains token).length
  if all = 0 then .zero else Ieee.ofNat .single common / Ieee.ofNat .single all

/-- The overlaps of all fields by their weights, added in the order of the fields. -/
def matchScore (query : List String) (fields : List (Binary32 × String)) : Binary32 :=
  (fields.map fun field => field.1 * overlap query (tokens field.2)).foldl (· + ·) .zero

/-- Whether a trimmed lowercase query stands as it is in a text. -/
def standsIn (needle : List Char) (text : String) : Bool :=
  !needle.isEmpty && Text.isInfix needle (Text.lowercase text).toList

/-- The bonus for an age: one for less than seven days, another for less than thirty. -/
def ageBonus? (context : Context) (updated : Instant) : Option Binary32 :=
  let age := context.now.since updated
  if age < Instant.days 7 then some context.settings.recentBonus
  else if age < Instant.days 30 then some context.settings.monthBonus
  else none

/-- The score of an item for the tokens and the needle of a query. -/
def score (context : Context) (query : List String) (needle : List Char) (profile : Profile) :
    Binary32 :=
  let matched := matchScore query profile.fields
  let found := if standsIn needle profile.salient then matched + context.settings.substringBonus
    else matched
  let aged := match profile.updatedAt.bind (ageBonus? context) with
    | some bonus => found + bonus
    | none => found
  let settled := if profile.isStale then aged - context.settings.stalePenalty else aged
  match profile.confidence with
  | some confidence => settled * confidence.clamp .zero (.ofNat .single 1)
  | none => settled

/-- An item and its score. -/
structure Hit (α : Type) where
  item : α
  score : Binary32

/-- The text that a query is looked for as it is. -/
def needle (query : String) : List Char :=
  (Text.lowercase (String.ofList (Text.trim query.toList))).toList

/-- The items of a corpus that score enough, in the order of the corpus. -/
def candidates {α : Type} (context : Context) (profile : α → Profile) (query : String)
    (corpus : List α) : List (Hit α) :=
  let queryTokens := tokens query
  let queryNeedle := needle query
  (corpus.map fun item => ⟨item, score context queryTokens queryNeedle (profile item)⟩).filter
    fun hit => context.settings.epsilon.le hit.score

/-- Whether a hit may stand before another. -/
def precedes {α : Type} (first second : Hit α) : Bool :=
  decide (second.score.rank ≤ first.score.rank)

/-- The best items of a corpus for a query; equally good ones keep the order of the corpus. -/
def search {α : Type} (context : Context) (profile : α → Profile) (query : String)
    (limit : Nat) (corpus : List α) : List (Hit α) :=
  if tokens query = [] ∨ limit = 0 then []
  else ((candidates context profile query corpus).mergeSort precedes).take limit

end Search

namespace Module

/-- Texts joined by blanks. -/
def joinTexts (texts : List String) : String := " ".intercalate texts

/-- What a search sees of a module. -/
def profile (module : Module) : Search.Profile where
  fields := [
    (SearchSettings.hundredths 30, module.path),
    (SearchSettings.hundredths 30, module.summary),
    (SearchSettings.hundredths 25, joinTexts (module.interfaces.map (·.name))),
    (SearchSettings.hundredths 15, joinTexts (module.interfaces.map (·.doc)))]
  salient := module.path
  updatedAt := none
  isStale := false
  confidence := none

end Module

namespace Learning

/-- What a search sees of a learning. -/
def profile (stale : Learning → Bool) (learning : Learning) : Search.Profile where
  fields := [
    (SearchSettings.hundredths 20, learning.modulePath),
    (SearchSettings.hundredths 30, learning.summary),
    (SearchSettings.hundredths 20, learning.purpose),
    (SearchSettings.hundredths 20, Module.joinTexts (learning.keyFunctions.entries.map
      fun entry => entry.1 ++ " " ++ entry.2)),
    (SearchSettings.hundredths 10, Module.joinTexts learning.gotchas)]
  salient := learning.summary
  updatedAt := some learning.updatedAt
  isStale := stale learning
  confidence := some learning.confidence

end Learning

/-- The modules of a graph that match a query. -/
def Graph.search (graph : Graph) (context : Search.Context) (query : String) (limit : Nat) :
    List (Search.Hit Module) :=
  Search.search context Module.profile query limit graph.modules.values

/-- The learnings that match a query; `stale` tells which of them have changed sources. -/
def Knowledge.search (knowledge : Knowledge) (context : Search.Context)
    (stale : Learning → Bool) (query : String) (limit : Nat) : List (Search.Hit Learning) :=
  Search.search context (Learning.profile stale) query limit knowledge.learnings.values

end CodeAtlas
