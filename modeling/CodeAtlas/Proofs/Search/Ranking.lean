import CodeAtlas.Extraction
import Mathlib.Data.List.FinRange
import Mathlib.Data.List.InsertIdx
import Mathlib.Data.List.Nodup

/-!
# Ranked hits

The hits of a search are the items that score enough, the best ones first and equally good ones in
the order of the corpus, up to the limit.  So a smaller limit gives a beginning of them, and items
that are no hits can be removed from the corpus.  A feature is extracted around the first hit.
-/

namespace CodeAtlas

/-! ## Stable sorting -/

section Sorting

variable {α : Type} {le : α → α → Bool} {before : α → α → Prop} {items : List α}

/-- A sorted list keeps the order in which equal items stood. -/
theorem pairwise_mergeSort_of_pairwise
    (transitive : ∀ first second third, le first second = true → le second third = true →
      le first third = true)
    (total : ∀ first second, (le first second || le second first) = true)
    (ordered : items.Pairwise before) :
    (items.mergeSort le).Pairwise fun first second =>
      le first second = true ∧ (le second first = true → before first second) := by
  have sorted := List.pairwise_mergeSort (List.zipIdxLE_trans transitive)
    (List.zipIdxLE_total total) items.zipIdx
  have distinct : (items.zipIdx.mergeSort (List.zipIdxLE le)).Pairwise (·.2 ≠ ·.2) := by
    refine ((List.mergeSort_perm _ _).pairwise_iff Ne.symm).mpr (List.pairwise_map.mp ?_)
    rw [List.zipIdx_map_snd]
    exact List.nodup_range'
  rw [← List.mergeSort_zipIdx, List.pairwise_map]
  refine (sorted.and distinct).imp_of_mem fun {first second} isFirst isSecond both => ?_
  obtain ⟨placed, different⟩ := both
  rw [List.zipIdxLE] at placed
  have fits : le first.1 second.1 = true := by
    by_contra unfit
    simp [unfit] at placed
  refine ⟨fits, fun back => ?_⟩
  have earlier : first.2 ≤ second.2 := by simpa [fits, back] using placed
  have atFirst := List.mem_zipIdx_iff_getElem?.mp (List.mem_mergeSort.mp isFirst)
  have atSecond := List.mem_zipIdx_iff_getElem?.mp (List.mem_mergeSort.mp isSecond)
  obtain ⟨inFirst, isFirst⟩ := List.getElem?_eq_some_iff.mp atFirst
  obtain ⟨inSecond, isSecond⟩ := List.getElem?_eq_some_iff.mp atSecond
  rw [← isFirst, ← isSecond]
  exact List.pairwise_iff_getElem.mp ordered _ _ inFirst inSecond (by omega)

/-- Items can be left out before or after sorting. -/
theorem filter_mergeSort
    (transitive : ∀ first second third, le first second = true → le second third = true →
      le first third = true)
    (total : ∀ first second, (le first second || le second first) = true)
    (ordered : items.Pairwise before)
    (asymmetric : ∀ first second, before first second → ¬before second first)
    (test : α → Bool) :
    (items.filter test).mergeSort le = (items.mergeSort le).filter test := by
  refine List.Perm.eq_of_pairwise (fun first second _ _ forth back => ?_)
    (pairwise_mergeSort_of_pairwise transitive total (ordered.filter test))
    ((pairwise_mergeSort_of_pairwise transitive total ordered).filter test) ?_
  · exact absurd (back.2 forth.1) (asymmetric _ _ (forth.2 back.1))
  · exact (List.mergeSort_perm _ _).trans ((List.mergeSort_perm _ _).filter test).symm

/-- An item that is not among the first ones of a list can be left out. -/
theorem take_filter_ne [DecidableEq α] {item : α} {limit : ℕ} (absent : item ∉ items.take limit) :
    (items.filter (· ≠ item)).take limit = items.take limit := by
  have kept : (items.take limit).filter (· ≠ item) = items.take limit :=
    List.filter_eq_self.mpr fun other member => by
      simpa using ne_of_mem_of_not_mem member absent
  conv_lhs => rw [← List.take_append_drop limit items, List.filter_append, kept]
  rcases Nat.le_total limit items.length with long | short
  · have length : (items.take limit).length = limit := List.length_take_of_le long
    rw [List.take_append_of_le_length length.ge, List.take_take, Nat.min_self]
  · rw [List.drop_eq_nil_of_le short, List.filter_nil, List.append_nil, List.take_take,
      Nat.min_self]

/-- Leaving out a place by its number is leaving it out by its value. -/
theorem eraseIdx_finRange {count : ℕ} (place : Fin count) :
    (List.finRange count).eraseIdx place = (List.finRange count).filter (· ≠ place) := by
  have erased := (List.nodup_finRange count).erase_getElem place (by simp)
  rw [← erased, (List.nodup_finRange count).erase_eq_filter, List.getElem_finRange]
  refine List.filter_congr fun other _ => Bool.eq_iff_iff.mpr ?_
  rw [bne_iff_ne, decide_eq_true_iff]
  rfl

end Sorting

namespace Search

variable {α : Type} (context : Context) (profile : α → Profile) (query : String) (limit : ℕ)
  (corpus : List α)

/-- An item with its score for a query. -/
def hitOf (item : α) : Hit α := ⟨item, score context (tokens query) (needle query) (profile item)⟩

/-- The rank of the score of the item at a place of a corpus. -/
def rankAt (place : Fin corpus.length) : ℤ :=
  (hitOf context profile query (corpus.get place)).score.rank

/-- Whether the item at a place of a corpus scores enough. -/
def scoresEnough (place : Fin corpus.length) : Bool :=
  context.settings.epsilon.le (hitOf context profile query (corpus.get place)).score

/-- The item at one place has the greater score, or the same score and the earlier place. -/
def Outranks (first second : Fin corpus.length) : Prop :=
  rankAt context profile query corpus second < rankAt context profile query corpus first ∨
    rankAt context profile query corpus first = rankAt context profile query corpus second ∧
      first < second

/-- What the hits of a search are: the items of a corpus at some places. -/
structure IsRanking (places : List (Fin corpus.length)) : Prop where
  hits : search context profile query limit corpus =
    places.map fun place => hitOf context profile query (corpus.get place)
  distinct : places.Nodup
  enough : ∀ place ∈ places, scoresEnough context profile query corpus place = true
  ordered : places.Pairwise (Outranks context profile query corpus)
  /-- An item that scores enough and is no hit is outranked by the last hit. -/
  cut : tokens query ≠ [] → 1 ≤ limit → ∀ place ∉ places,
    scoresEnough context profile query corpus place = true →
      ∃ last, places.getLast? = some last ∧ Outranks context profile query corpus last place
  /-- As many hits as the limit allows. -/
  length : tokens query ≠ [] → places.length =
    min limit ((List.finRange corpus.length).countP (scoresEnough context profile query corpus))
  /-- A smaller limit gives the first hits. -/
  shorter : ∀ fewer ≤ limit, search context profile query fewer corpus =
    (search context profile query limit corpus).take fewer
  /-- Items that are no hits do not matter. -/
  removal : ∀ place ∉ places, search context profile query limit (corpus.eraseIdx place) =
    search context profile query limit corpus

/-- Whether the item at one place may stand before that at another. -/
def mayPrecede (first second : Fin corpus.length) : Bool :=
  precedes (hitOf context profile query (corpus.get first))
    (hitOf context profile query (corpus.get second))

/-- The places of the items that score enough, in the order of their ranking. -/
def ranked : List (Fin corpus.length) :=
  ((List.finRange corpus.length).filter (scoresEnough context profile query corpus)).mergeSort
    (mayPrecede context profile query corpus)

variable {context profile query limit corpus}

theorem mayPrecede_iff {first second : Fin corpus.length} :
    mayPrecede context profile query corpus first second = true ↔
      rankAt context profile query corpus second ≤ rankAt context profile query corpus first :=
  decide_eq_true_iff

theorem mayPrecede_trans (first second third : Fin corpus.length)
    (forth : mayPrecede context profile query corpus first second = true)
    (further : mayPrecede context profile query corpus second third = true) :
    mayPrecede context profile query corpus first third = true := by
  rw [mayPrecede_iff] at *
  exact further.trans forth

theorem mayPrecede_total (first second : Fin corpus.length) :
    (mayPrecede context profile query corpus first second ||
      mayPrecede context profile query corpus second first) = true := by
  rw [Bool.or_eq_true, mayPrecede_iff, mayPrecede_iff]
  exact Int.le_total _ _

theorem pairwise_ranked :
    (ranked context profile query corpus).Pairwise (Outranks context profile query corpus) := by
  have ordered := (List.pairwise_lt_finRange corpus.length).filter
    (scoresEnough context profile query corpus)
  refine (pairwise_mergeSort_of_pairwise mayPrecede_trans mayPrecede_total ordered).imp ?_
  intro first second both
  obtain ⟨forth, back⟩ := both
  rw [mayPrecede_iff] at forth back
  rcases forth.lt_or_eq with less | same
  · exact .inl less
  · exact .inr ⟨same.symm, back same.ge⟩

theorem nodup_ranked : (ranked context profile query corpus).Nodup :=
  (List.mergeSort_perm _ _).nodup_iff.mpr ((List.nodup_finRange _).filter _)

theorem mem_ranked_iff {place : Fin corpus.length} :
    place ∈ ranked context profile query corpus ↔
      scoresEnough context profile query corpus place = true := by
  rw [ranked, List.mem_mergeSort, List.mem_filter, and_iff_right (List.mem_finRange place)]

theorem length_ranked : (ranked context profile query corpus).length =
    (List.finRange corpus.length).countP (scoresEnough context profile query corpus) := by
  rw [ranked, List.length_mergeSort, List.countP_eq_length_filter]

/-- The candidates among the items at some places of a corpus. -/
theorem candidates_map_get (places : List (Fin corpus.length)) :
    candidates context profile query (places.map corpus.get) =
      (places.filter (scoresEnough context profile query corpus)).map fun place =>
        hitOf context profile query (corpus.get place) := by
  rw [candidates, List.map_map, List.filter_map]
  rfl

/-- Sorting the hits at some places is sorting the places. -/
theorem mergeSort_map_hitOf (places : List (Fin corpus.length)) :
    (places.map fun place => hitOf context profile query (corpus.get place)).mergeSort precedes =
      (places.mergeSort (mayPrecede context profile query corpus)).map fun place =>
        hitOf context profile query (corpus.get place) := by
  refine (List.map_mergeSort fun first _ second _ => ?_).symm
  rfl

/-- The best items of a corpus are those at the first places of the ranking. -/
theorem mergeSort_candidates :
    (candidates context profile query corpus).mergeSort precedes =
      (ranked context profile query corpus).map fun place =>
        hitOf context profile query (corpus.get place) := by
  conv_lhs => rw [← List.map_get_finRange corpus]
  rw [candidates_map_get, mergeSort_map_hitOf, ranked]

/-- Without the item at a place the ranking of the others stays. -/
theorem mergeSort_candidates_eraseIdx (place : Fin corpus.length) :
    (candidates context profile query (corpus.eraseIdx place)).mergeSort precedes =
      ((ranked context profile query corpus).filter (· ≠ place)).map fun place =>
        hitOf context profile query (corpus.get place) := by
  have others : corpus.eraseIdx place =
      ((List.finRange corpus.length).filter (· ≠ place)).map corpus.get := by
    rw [← eraseIdx_finRange, ← List.eraseIdx_map, List.map_get_finRange]
  rw [others, candidates_map_get, mergeSort_map_hitOf, ranked, List.filter_comm, filter_mergeSort
    mayPrecede_trans mayPrecede_total ((List.pairwise_lt_finRange _).filter _) fun _ _ => lt_asymm]

theorem search_eq_take (known : tokens query ≠ []) :
    search context profile query limit corpus =
      ((candidates context profile query corpus).mergeSort precedes).take limit := by
  rw [search]
  split
  next none =>
    rw [none.resolve_left known, List.take_zero]
  next => rfl

theorem search_eq_nil (unknown : tokens query = []) :
    search context profile query limit corpus = [] := if_pos (.inl unknown)

/-- A smaller limit gives the first hits. -/
theorem search_take {fewer : ℕ} (less : fewer ≤ limit) :
    search context profile query fewer corpus =
      (search context profile query limit corpus).take fewer := by
  by_cases known : tokens query = []
  · rw [search_eq_nil known, search_eq_nil known, List.take_nil]
  · rw [search_eq_take known, search_eq_take known, List.take_take, Nat.min_eq_left less]

theorem isRanking_nil (unknown : tokens query = []) :
    IsRanking context profile query limit corpus [] where
  hits := search_eq_nil unknown
  distinct := .nil
  enough := List.forall_mem_nil _
  ordered := .nil
  cut known := absurd unknown known
  length known := absurd unknown known
  shorter _ := search_take
  removal _ _ := (search_eq_nil unknown).trans (search_eq_nil unknown).symm

theorem isRanking_ranked (known : tokens query ≠ []) :
    IsRanking context profile query limit corpus
      ((ranked context profile query corpus).take limit) where
  hits := by rw [search_eq_take known, mergeSort_candidates, List.map_take]
  distinct := nodup_ranked.sublist (List.take_sublist _ _)
  enough place member := mem_ranked_iff.mp (List.mem_of_mem_take member)
  ordered := pairwise_ranked.sublist (List.take_sublist _ _)
  cut _ some place absent enough := by
    have member := mem_ranked_iff.mpr enough
    have dropped : place ∈ (ranked context profile query corpus).drop limit := by
      rw [← List.take_append_drop limit (ranked context profile query corpus)] at member
      exact (List.mem_append.mp member).resolve_left absent
    have nonempty : (ranked context profile query corpus).take limit ≠ [] := by
      rw [ne_eq, List.take_eq_nil_iff]
      rintro (none | empty)
      · omega
      · rw [empty] at member
        cases member
    exact ⟨_, List.getLast?_eq_some_getLast nonempty,
      pairwise_ranked.rel_of_mem_take_of_mem_drop (List.getLast_mem nonempty) dropped⟩
  length _ := by rw [List.length_take, length_ranked]
  shorter _ := search_take
  removal place absent := by
    rw [search_eq_take known, search_eq_take known, mergeSort_candidates_eraseIdx,
      mergeSort_candidates, ← List.map_take, ← List.map_take, take_filter_ne absent]

theorem exists_isRanking : ∃ places, IsRanking context profile query limit corpus places := by
  by_cases known : tokens query = []
  · exact ⟨[], isRanking_nil known⟩
  · exact ⟨_, isRanking_ranked known⟩

end Search

namespace Feature

variable {context : Search.Context} {query : String} {limit : ℕ} {graph : Graph} {disk : Disk}
  {root : String} {options : ExtractOptions} {now : Instant}

/-- A feature is extracted around the first hit, whatever the limit of the search. -/
theorem extractMatching_eq (some : 1 ≤ limit) :
    extractMatching graph disk root query options context now =
      match (graph.search context query limit).head? with
      | .some hit => extract graph disk root hit.item.path options now
      | none => .error (.notFound .moduleMatching query) := by
  have first : graph.search context query 1 = (graph.search context query limit).take 1 :=
    Search.search_take some
  rw [extractMatching, first]
  cases graph.search context query limit <;> rfl

/-- A search ranks the items of a corpus, and a feature is extracted around the first hit among the
modules of a graph for any limit, with the outcome that the extraction around that hit has; there
is no such module exactly if there is no hit. -/
theorem search_ranks_and_selects {α : Type} (context : Search.Context)
    (profile : α → Search.Profile) (query : String) (limit : ℕ) (corpus : List α) (graph : Graph)
    (disk : Disk) (root : String) (options : ExtractOptions) (now : Instant) :
    (∃ places, Search.IsRanking context profile query limit corpus places) ∧
      (1 ≤ limit → extractMatching graph disk root query options context now =
        match (graph.search context query limit).head? with
        | some hit => extract graph disk root hit.item.path options now
        | none => .error (.notFound .moduleMatching query)) :=
  ⟨Search.exists_isRanking, extractMatching_eq⟩

end Feature

end CodeAtlas
