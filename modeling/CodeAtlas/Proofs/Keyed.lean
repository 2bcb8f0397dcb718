import CodeAtlas.Keyed
import CodeAtlas.Proofs.FirstOccurrence

/-!
# Laws of maps ordered by key

What a map gives for a key is what its entries say, and what a change leaves behind is the old
map apart from the key that was changed.
-/

namespace CodeAtlas.Keyed

variable {α β : Type}

theorem pairwise_keys (map : Keyed α) : map.keys.Pairwise (· < ·) :=
  List.pairwise_map.mpr map.ascending

theorem nodup_keys (map : Keyed α) : map.keys.Nodup :=
  nodup_of_ascending map.pairwise_keys

theorem lookup_cons_eq_ite (key : String) (head : String × α) (tail : List (String × α)) :
    (head :: tail).lookup key = if key = head.1 then some head.2 else tail.lookup key := by
  obtain ⟨own, value⟩ := head
  by_cases same : key = own
  · simp [same]
  · have different : (key == own) = false := beq_eq_false_iff_ne.mpr same
    simp [List.lookup_cons, different, same]

/-- Looking up items under their keys is finding the first item with the key. -/
theorem lookup_map (label : β → String) (value : β → α) (items : List β) (key : String) :
    (items.map fun item => (label item, value item)).lookup key =
      (items.find? (label · == key)).map value := by
  induction items with
  | nil => rfl
  | cons item rest induction =>
      rw [List.map_cons, lookup_cons_eq_ite, induction]
      by_cases same : key = label item
      · simp [same]
      · have different : (label item == key) = false := by simpa using Ne.symm same
        rw [if_neg same, List.find?_cons_of_neg (by simpa using different)]

theorem lookup_map_value (change : α → β) (entries : List (String × α)) (key : String) :
    (entries.map fun entry => (entry.1, change entry.2)).lookup key =
      (entries.lookup key).map change := by
  induction entries with
  | nil => rfl
  | cons entry rest induction =>
      rw [List.map_cons, lookup_cons_eq_ite, lookup_cons_eq_ite, induction]
      split <;> rfl

/-- Entries in ascending order hold one value for a key. -/
theorem lookup_eq_some_iff {entries : List (String × α)} {key : String} {value : α}
    (ascending : entries.Pairwise (fun first second => first.1 < second.1)) :
    entries.lookup key = some value ↔ (key, value) ∈ entries := by
  induction entries with
  | nil => simp
  | cons head tail induction =>
      obtain ⟨above, tailAscending⟩ := List.pairwise_cons.mp ascending
      rw [lookup_cons_eq_ite, List.mem_cons]
      by_cases same : key = head.1
      · have absent : (key, value) ∉ tail := fun member =>
          String.lt_irrefl key (by simpa [same] using above _ member)
        rw [if_pos same, Option.some.injEq]
        constructor
        · intro equality
          exact .inl (Prod.ext same equality.symm)
        · intro cases
          rcases cases with equality | member
          · exact (congrArg Prod.snd equality).symm
          · exact absurd member absent
      · have headDifferent : (key, value) ≠ head := fun equality =>
          same (congrArg Prod.fst equality)
        simp [same, headDifferent, induction tailAscending]

theorem get?_eq_some_iff {map : Keyed α} {key : String} {value : α} :
    map.get? key = some value ↔ (key, value) ∈ map.entries :=
  lookup_eq_some_iff map.ascending

theorem mem_keys_iff {map : Keyed α} {key : String} :
    key ∈ map.keys ↔ ∃ value, map.get? key = some value := by
  simp [keys, get?_eq_some_iff]

@[simp] theorem contains_iff_mem_keys {map : Keyed α} {key : String} :
    map.contains key = true ↔ key ∈ map.keys := by
  rw [mem_keys_iff, contains, Option.isSome_iff_exists]

theorem contains_eq_false_iff {map : Keyed α} {key : String} :
    map.contains key = false ↔ map.get? key = none := by
  simp [contains]

theorem mem_values_iff {map : Keyed α} {value : α} :
    value ∈ map.values ↔ ∃ key, map.get? key = some value := by
  simp [values, get?_eq_some_iff]

theorem lookup_insertEntry {key other : String} {value : α} {entries : List (String × α)} :
    (insertEntry key value entries).lookup other =
      if other = key then some value else entries.lookup other := by
  induction entries with
  | nil => simp [insertEntry, lookup_cons_eq_ite]
  | cons head tail induction =>
      simp only [insertEntry]
      split
      next below => rw [lookup_cons_eq_ite]
      next notBelow =>
        split
        next above =>
          have different : head.1 ≠ key := fun same => String.lt_irrefl key (same ▸ above)
          rw [lookup_cons_eq_ite, lookup_cons_eq_ite, induction]
          by_cases atHead : other = head.1
          · simp [atHead, different]
          · simp [atHead]
        next notAbove =>
          have same : key = head.1 :=
            String.le_antisymm (String.not_lt.mp notAbove) (String.not_lt.mp notBelow)
          simp only [lookup_cons_eq_ite, ← same]
          split <;> rfl

@[simp] theorem get?_insert (map : Keyed α) (key other : String) (value : α) :
    (map.insert key value).get? other = if other = key then some value else map.get? other :=
  lookup_insertEntry

@[simp] theorem get?_erase (map : Keyed α) (key other : String) :
    (map.erase key).get? other = if other = key then none else map.get? other := by
  refine Option.ext fun value => ?_
  rw [get?_eq_some_iff, erase, List.mem_filter, bne_iff_ne]
  split
  next same => simp [same]
  next different => simp [different, get?_eq_some_iff]

/-- Of the values that one key is given, the last one stays. -/
theorem get?_foldl_insert (entries : List (String × α)) (map : Keyed α) (key : String) :
    (entries.foldl (fun map entry => map.insert entry.1 entry.2) map).get? key =
      (entries.reverse.lookup key).or (map.get? key) := by
  induction entries generalizing map with
  | nil => simp
  | cons head tail induction =>
      rw [List.foldl_cons, induction, get?_insert, List.reverse_cons, List.lookup_append,
        Option.or_assoc, lookup_cons_eq_ite]
      congr 1
      by_cases same : key = head.1 <;> simp [same]

theorem get?_ofList (entries : List (String × α)) (key : String) :
    (ofList entries).get? key = entries.reverse.lookup key := by
  rw [ofList, get?_foldl_insert]
  simp

theorem mem_keys_ofList {entries : List (String × α)} {key : String} :
    key ∈ (ofList entries).keys ↔ key ∈ entries.map (·.1) := by
  rw [mem_keys_iff, ← Option.isSome_iff_exists, get?_ofList, Option.isSome_iff_ne_none, ne_eq,
    List.lookup_eq_none_iff]
  simp

theorem mem_of_mem_ofList {entries : List (String × α)} {entry : String × α}
    (member : entry ∈ (ofList entries).entries) : entry ∈ entries := by
  have found := get?_eq_some_iff.mpr member
  rw [get?_ofList, List.lookup_eq_some_iff] at found
  obtain ⟨before, after, split, _⟩ := found
  have reversed : entry ∈ entries.reverse := split ▸ by simp
  exact List.mem_reverse.mp reversed

/-- Entries with distinct keys are all kept. -/
theorem get?_ofList_eq_some_iff {entries : List (String × α)}
    (distinct : (entries.map (·.1)).Nodup) {key : String} {value : α} :
    (ofList entries).get? key = some value ↔ (key, value) ∈ entries := by
  constructor
  · intro found
    exact mem_of_mem_ofList (get?_eq_some_iff.mp found)
  · intro member
    obtain ⟨other, found⟩ := mem_keys_iff.mp
      (mem_keys_ofList.mpr (List.mem_map_of_mem member))
    have same := List.inj_on_of_nodup_map distinct
      (mem_of_mem_ofList (get?_eq_some_iff.mp found)) member rfl
    cases same
    exact found

/-- Two maps that give the same for every key are equal. -/
theorem eq_of_get?_eq {first second : Keyed α} (same : ∀ key, first.get? key = second.get? key) :
    first = second := by
  have members (entry : String × α) : entry ∈ first.entries ↔ entry ∈ second.entries := by
    exact (get?_eq_some_iff.symm.trans (Eq.congr_left (same entry.1))).trans get?_eq_some_iff
  have distinct (map : Keyed α) : map.entries.Nodup := .of_map _ map.nodup_keys
  refine ext (((List.perm_ext_iff_of_nodup (distinct first) (distinct second)).mpr
    members).eq_of_pairwise ?_ first.ascending second.ascending)
  intro one other _ _ below above
  exact absurd (String.lt_trans below above) (String.lt_irrefl one.1)

/-- The entries of a map make the map. -/
@[simp] theorem ofList_entries (map : Keyed α) : ofList map.entries = map := by
  refine eq_of_get?_eq fun key => ?_
  refine Option.ext fun value => ?_
  rw [get?_ofList_eq_some_iff map.nodup_keys, get?_eq_some_iff]

@[simp] theorem get?_map (change : α → β) (map : Keyed α) (key : String) :
    (map.map change).get? key = (map.get? key).map change :=
  lookup_map_value change map.entries key

theorem map_ofList (change : α → β) (entries : List (String × α)) :
    (ofList entries).map change = ofList (entries.map fun entry => (entry.1, change entry.2)) := by
  refine eq_of_get?_eq fun key => ?_
  rw [get?_map, get?_ofList, get?_ofList, ← List.map_reverse, lookup_map_value]

end CodeAtlas.Keyed
