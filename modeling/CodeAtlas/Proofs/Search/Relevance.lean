import CodeAtlas.Proofs.Knowledge.Confidence
import CodeAtlas.Proofs.Number.Zero
import CodeAtlas.Proofs.Search.Ranking
import Mathlib.Data.List.Infix

/-!
# Relevant hits

An item matches a query if it shares a token with it or if the query stands as it is in its most
telling text.  With the default settings a module without a match is never a hit.  A learning
without a match is one only as long as the bonus for its age, by its confidence, reaches the
threshold: the bonus is added to the overlaps and does not need any.
-/

namespace CodeAtlas

namespace Text

variable {part text : List Char}

theorem isInfix_iff : isInfix part text = true ↔ part <:+: text := by
  induction text with
  | nil => rw [isInfix, List.isEmpty_iff, List.infix_nil]
  | cons c rest induction =>
      rw [isInfix, Bool.or_eq_true, List.isPrefixOf_iff_prefix, induction, List.infix_cons_iff]

end Text

theorem SearchSettings.not_epsilon_le_zero : ¬default.epsilon.le .zero = true := by
  decide +kernel

namespace Learning

variable {value confidence : Binary32}

/-- What is zero or below stays so by a confidence. -/
theorem mul_le_zero (finite : value.isFinite = true) (nonpositive : value.le .zero = true)
    (isConfidence : IsConfidence confidence) : (value * confidence).le .zero = true := by
  have finiteToo := isConfidence.isFinite
  obtain ⟨nonnegative, -⟩ := isConfidence
  cases value with
  | infinite => cases finite
  | notANumber => cases finite
  | finite negative units =>
    cases confidence with
    | infinite => cases finiteToo
    | notANumber => cases finiteToo
    | finite other factor =>
        rw [Ieee.finite_le_zero_iff] at nonpositive
        rw [Ieee.zero_le_finite_iff] at nonnegative
        rw [Ieee.finite_mul_eq_ofUnits]
        by_cases none : units * factor = 0
        · rw [none, Ieee.ofUnits_zero]
          exact Ieee.finite_le_zero_iff.mpr (.inr rfl)
        · obtain ⟨some, someToo⟩ := Nat.mul_ne_zero_iff.mp none
          rw [nonpositive.resolve_right some, nonnegative.resolve_right someToo, Ieee.ofUnits]
          split
          · exact Ieee.finite_le_zero_iff.mpr (.inl rfl)
          · exact Ieee.infinite_le_zero

theorem normalConfidence_eq_clamp (number : ∀ negative, value ≠ .notANumber negative) :
    normalConfidence value = value.clamp .zero (.ofNat .single 1) := by
  unfold normalConfidence
  split
  next negative => exact absurd rfl (number negative)
  next => rfl

/-- No confidence lifts what is zero or below over the threshold. -/
theorem not_epsilon_le_mul (finite : value.isFinite = true) (nonpositive : value.le .zero = true) :
    ¬SearchSettings.default.epsilon.le (value * confidence.clamp .zero (.ofNat .single 1)) =
      true := by
  by_cases number : ∀ negative, confidence ≠ .notANumber negative
  · rw [← normalConfidence_eq_clamp number]
    intro reached
    exact SearchSettings.not_epsilon_le_zero (Ieee.le_trans reached
      (mul_le_zero finite nonpositive (isConfidence_normalConfidence confidence)))
  · push Not at number
    obtain ⟨negative, rfl⟩ := number
    rw [Ieee.clamp_notANumber, Ieee.mul_notANumber finite, Ieee.le_notANumber]
    exact Bool.false_ne_true

end Learning

namespace Search

section Hits

variable {α : Type} {context : Context} {profile : α → Profile} {query : String} {limit : ℕ}
  {corpus : List α} {hit : Hit α} {item : α}

/-- An item scores enough for a query. -/
def Reaches (context : Context) (profile : α → Profile) (query : String) (item : α) : Prop :=
  context.settings.epsilon.le (hitOf context profile query item).score = true

theorem mem_candidates_iff : hit ∈ candidates context profile query corpus ↔
    ∃ item ∈ corpus, Reaches context profile query item ∧
      hitOf context profile query item = hit := by
  rw [candidates, List.mem_filter, List.mem_map]
  constructor
  · rintro ⟨⟨item, member, rfl⟩, reaches⟩
    exact ⟨item, member, reaches, rfl⟩
  · rintro ⟨item, member, reaches, rfl⟩
    exact ⟨⟨item, member, rfl⟩, reaches⟩

/-- A hit scores enough. -/
theorem reaches_of_mem_search (found : hit ∈ search context profile query limit corpus) :
    Reaches context profile query hit.item := by
  rw [search] at found
  split at found
  next => cases found
  next =>
    have member := List.mem_mergeSort.mp (List.mem_of_mem_take found)
    obtain ⟨item, -, reaches, rfl⟩ := mem_candidates_iff.mp member
    exact reaches

/-- Under a limit that drops nothing the hits are the items that score enough. -/
theorem exists_hit_iff (member : item ∈ corpus) (most : corpus.length ≤ limit) :
    (∃ hit ∈ search context profile query limit corpus, hit.item = item) ↔
      tokens query ≠ [] ∧ Reaches context profile query item := by
  constructor
  · rintro ⟨hit, found, rfl⟩
    refine ⟨fun none => ?_, reaches_of_mem_search found⟩
    rw [search_eq_nil none] at found
    cases found
  · rintro ⟨known, reaches⟩
    have few : (candidates context profile query corpus).length ≤ limit :=
      (List.length_filter_le _ _).trans (by rwa [List.length_map])
    refine ⟨hitOf context profile query item, ?_, rfl⟩
    rw [search_eq_take known, List.take_of_length_le (by rwa [List.length_mergeSort]),
      List.mem_mergeSort]
    exact mem_candidates_iff.mpr ⟨item, member, reaches, rfl⟩

end Hits

variable {query : String} {profile : Profile} {context : Context}

/-- An item matches a query: one of its texts has a token of the query, or the query stands,
trimmed and in lowercase, in its most telling text in lowercase. -/
def IsRelevant (query : String) (profile : Profile) : Prop :=
  (∃ field ∈ profile.fields, ∃ token ∈ tokens query, token ∈ tokens field.2) ∨
    needle query ≠ [] ∧ needle query <:+: (Text.lowercase profile.salient).toList

instance : Decidable (IsRelevant query profile) := inferInstanceAs (Decidable (_ ∨ _))

/-- Texts without a common token do not overlap. -/
theorem overlap_eq_zero {first second : List String}
    (apart : ∀ token ∈ first, token ∉ second) : overlap first second = .zero := by
  have none : first.filter second.contains = [] :=
    List.filter_eq_nil_iff.mpr fun token member => by simpa using apart token member
  simp only [overlap, none]
  split
  next => rfl
  next nonempty =>
    have zero : (Ieee.ofNat .single ([] : List String).length) = .zero := by decide +kernel
    rw [zero, Ieee.zero_div_ofNat (by decide) nonempty]

theorem foldl_add_zero {terms : List Binary32} (none : ∀ term ∈ terms, term = .zero) :
    terms.foldl (· + ·) .zero = .zero := by
  induction terms with
  | nil => rfl
  | cons term rest induction =>
      obtain ⟨rfl, others⟩ := List.forall_mem_cons.mp none
      have sum : (.zero + .zero : Binary32) = .zero := by decide +kernel
      rw [List.foldl_cons, sum, induction others]

/-- An item without a match scores as if it had no texts. -/
theorem score_eq_of_not_isRelevant (weights : ∀ field ∈ profile.fields, field.1 * .zero = .zero)
    (irrelevant : ¬IsRelevant query profile) :
    score context (tokens query) (needle query) profile =
      score context [] [] { profile with fields := [] } := by
  rw [IsRelevant, not_or] at irrelevant
  obtain ⟨apart, absent⟩ := irrelevant
  have unmatched : matchScore (tokens query) profile.fields = .zero := by
    refine foldl_add_zero (List.forall_mem_map.mpr fun field member => ?_)
    rw [overlap_eq_zero, weights field member]
    exact fun token isToken common => apart ⟨field, member, token, isToken, common⟩
  have unfound : standsIn (needle query) profile.salient = false := by
    rw [Bool.eq_false_iff, standsIn, ne_eq, Bool.and_eq_true, Text.isInfix_iff]
    simpa using absent
  rw [score, unmatched, unfound]
  rfl

/-- A module without a match does not score enough. -/
theorem not_reaches_module {module : Module} {now : Instant}
    (irrelevant : ¬IsRelevant query module.profile) :
    ¬Reaches ⟨.default, now⟩ Module.profile query module := by
  have weights : ∀ field ∈ module.profile.fields, field.1 * .zero = .zero := by
    simp only [Module.profile, List.forall_mem_cons]
    decide +kernel
  rw [Reaches, hitOf, score_eq_of_not_isRelevant weights irrelevant]
  exact SearchSettings.not_epsilon_le_zero

end Search

namespace Learning

/-- A learning that is kept without a match: its source has not changed, and the bonus for its age
reaches the threshold by its confidence. -/
def IsKeptByAge (context : Search.Context) (stale : Learning → Bool) (learning : Learning) : Prop :=
  stale learning = false ∧
    ∃ bonus, Search.ageBonus? context learning.updatedAt = some bonus ∧
      context.settings.epsilon.le
        (bonus * learning.confidence.clamp .zero (.ofNat .single 1)) = true

variable {query : String} {stale : Learning → Bool} {learning : Learning} {now : Instant}

theorem ageBonus?_cases (now updated : Instant) :
    Search.ageBonus? ⟨.default, now⟩ updated = some SearchSettings.default.recentBonus ∨
      Search.ageBonus? ⟨.default, now⟩ updated = some SearchSettings.default.monthBonus ∨
        Search.ageBonus? ⟨.default, now⟩ updated = none := by
  rw [Search.ageBonus?]
  split
  · exact .inl rfl
  · split
    · exact .inr (.inl rfl)
    · exact .inr (.inr rfl)

/-- What the age and the staleness of a learning come to without a match. -/
def standing (bonus? : Option Binary32) (isStale : Bool) : Binary32 :=
  let aged := match bonus? with
    | some bonus => .zero + bonus
    | none => .zero
  if isStale then aged - SearchSettings.default.stalePenalty else aged

/-- The score of a learning without a match. -/
theorem score_eq_standing (irrelevant : ¬Search.IsRelevant query (learning.profile stale)) :
    (Search.hitOf ⟨.default, now⟩ (profile stale) query learning).score =
      standing (Search.ageBonus? ⟨.default, now⟩ learning.updatedAt) (stale learning) *
        learning.confidence.clamp .zero (.ofNat .single 1) := by
  have weights : ∀ field ∈ (learning.profile stale).fields, field.1 * .zero = .zero := by
    simp only [profile, List.forall_mem_cons]
    decide +kernel
  rw [Search.hitOf, Search.score_eq_of_not_isRelevant weights irrelevant]
  rfl

/-- A learning without a match scores enough exactly if it is kept by its age. -/
theorem reaches_iff (irrelevant : ¬Search.IsRelevant query (learning.profile stale)) :
    Search.Reaches ⟨.default, now⟩ (profile stale) query learning ↔
      IsKeptByAge ⟨.default, now⟩ stale learning := by
  rw [Search.Reaches, score_eq_standing irrelevant, IsKeptByAge]
  cases stale learning
  case true =>
    refine iff_of_false (not_epsilon_le_mul ?_ ?_) (by simp)
    all_goals
      rcases ageBonus?_cases now learning.updatedAt with age | age | age <;> rw [age] <;>
        decide +kernel
  case false =>
    rcases ageBonus?_cases now learning.updatedAt with recent | month | old
    · have bonus : standing (some SearchSettings.default.recentBonus) false =
          SearchSettings.default.recentBonus := by decide +kernel
      simp [recent, bonus]
    · have bonus : standing (some SearchSettings.default.monthBonus) false =
          SearchSettings.default.monthBonus := by decide +kernel
      simp [month, bonus]
    · rw [old]
      exact iff_of_false (not_epsilon_le_mul (by decide +kernel) (by decide +kernel)) (by simp)

end Learning

namespace Search

/-- With the default settings every hit among modules matches the query, and every hit among
learnings matches it or is kept by its age; a learning that does not match is found, under a limit
that drops nothing, exactly if it is kept by its age. -/
theorem search_default_isRelevant (query : String) (now : Instant) (limit : ℕ)
    (stale : Learning → Bool) :
    (∀ corpus : List Module, ∀ hit ∈ search ⟨.default, now⟩ Module.profile query limit corpus,
      IsRelevant query hit.item.profile) ∧
    (∀ corpus : List Learning,
      ∀ hit ∈ search ⟨.default, now⟩ (Learning.profile stale) query limit corpus,
        IsRelevant query (hit.item.profile stale) ∨
          hit.item.IsKeptByAge ⟨.default, now⟩ stale) ∧
    ∀ corpus : List Learning, corpus.length ≤ limit →
      ∀ learning ∈ corpus, ¬IsRelevant query (learning.profile stale) →
        ((∃ hit ∈ search ⟨.default, now⟩ (Learning.profile stale) query limit corpus,
          hit.item = learning) ↔
            tokens query ≠ [] ∧ learning.IsKeptByAge ⟨.default, now⟩ stale) := by
  refine ⟨fun corpus hit found => ?_, fun corpus hit found => ?_,
    fun corpus most learning member irrelevant => ?_⟩
  · by_contra irrelevant
    exact not_reaches_module irrelevant (reaches_of_mem_search found)
  · by_cases relevant : IsRelevant query (hit.item.profile stale)
    · exact .inl relevant
    · exact .inr ((Learning.reaches_iff relevant).mp (reaches_of_mem_search found))
  · rw [exists_hit_iff member most, Learning.reaches_iff irrelevant]

/-- A learning made a day before is found by a query that nothing in it matches. -/
theorem search_finds_unmatched_learning :
    let learning : Learning :=
      { Learning.blank ⟨1717113600, 0⟩ with modulePath := "a.py", summary := "cache" }
    (∃ hit ∈ search ⟨.default, ⟨1717200000, 0⟩⟩ (Learning.profile fun _ => false) "invoice" 10
      [learning], hit.item = learning) ∧
        ¬IsRelevant "invoice" (learning.profile fun _ => false) := by
  intro learning
  have irrelevant : ¬IsRelevant "invoice" (learning.profile fun _ => false) := by decide +kernel
  have kept : learning.IsKeptByAge ⟨.default, ⟨1717200000, 0⟩⟩ fun _ => false :=
    ⟨rfl, SearchSettings.default.recentBonus, by decide +kernel, by decide +kernel⟩
  refine ⟨(exists_hit_iff List.mem_cons_self (by decide)).mpr ⟨by decide +kernel, ?_⟩, irrelevant⟩
  exact (Learning.reaches_iff irrelevant).mpr kept

end Search

end CodeAtlas
