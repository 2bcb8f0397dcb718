/-!
# Maps ordered by key

A finite map from texts to values, kept as the list of its entries in ascending order of the
keys.  Two maps with the same entries are equal, and a listing is in the order of the keys.
-/

namespace CodeAtlas

/-- A finite map whose entries stand in strictly ascending order of their keys. -/
structure Keyed (α : Type) where
  entries : List (String × α)
  ascending : entries.Pairwise (fun first second => first.1 < second.1)

namespace Keyed

variable {α β : Type}

theorem ext {first second : Keyed α} (same : first.entries = second.entries) :
    first = second := by
  cases first
  cases second
  simp_all

instance [DecidableEq α] : DecidableEq (Keyed α) := fun first second =>
  if same : first.entries = second.entries then isTrue (ext same)
  else isFalse fun equality => same (equality ▸ rfl)

/-- The map without entries. -/
def empty : Keyed α := ⟨[], .nil⟩

instance : Inhabited (Keyed α) := ⟨empty⟩

/-- The keys in ascending order. -/
def keys (map : Keyed α) : List String := map.entries.map (·.1)

/-- The values in the order of their keys. -/
def values (map : Keyed α) : List α := map.entries.map (·.2)

def size (map : Keyed α) : Nat := map.entries.length

def get? (map : Keyed α) (key : String) : Option α :=
  map.entries.lookup key

def contains (map : Keyed α) (key : String) : Bool :=
  (map.get? key).isSome

/-- Put an entry in its place, replacing an entry of the same key. -/
def insertEntry (key : String) (value : α) : List (String × α) → List (String × α)
  | [] => [(key, value)]
  | entry :: rest =>
      if key < entry.1 then (key, value) :: entry :: rest
      else if entry.1 < key then entry :: insertEntry key value rest
      else (key, value) :: rest

theorem mem_insertEntry {key : String} {value : α} {entries : List (String × α)}
    {entry : String × α} (member : entry ∈ insertEntry key value entries) :
    entry = (key, value) ∨ entry ∈ entries := by
  induction entries with
  | nil => simpa [insertEntry] using member
  | cons head tail ih =>
      simp only [insertEntry] at member
      split at member
      · simpa using member
      · split at member
        · rcases List.mem_cons.mp member with first | later
          · exact .inr (by simp [first])
          · rcases ih later with new | old
            · exact .inl new
            · exact .inr (by simp [old])
        · rcases List.mem_cons.mp member with first | later
          · exact .inl first
          · exact .inr (by simp [later])

theorem pairwise_insertEntry {key : String} {value : α} {entries : List (String × α)}
    (ascending : entries.Pairwise (fun first second => first.1 < second.1)) :
    (insertEntry key value entries).Pairwise (fun first second => first.1 < second.1) := by
  induction entries with
  | nil => simp [insertEntry]
  | cons head tail ih =>
      have parts := List.pairwise_cons.mp ascending
      simp only [insertEntry]
      split
      next below =>
        refine List.pairwise_cons.mpr ⟨fun entry member => ?_, ascending⟩
        rcases List.mem_cons.mp member with first | later
        · simpa [first] using below
        · exact String.lt_trans below (parts.1 entry later)
      next notBelow =>
        split
        next above =>
          refine List.pairwise_cons.mpr ⟨fun entry member => ?_, ih parts.2⟩
          rcases mem_insertEntry member with new | old
          · simpa [new] using above
          · exact parts.1 entry old
        next notAbove =>
          have same : key = head.1 :=
            String.le_antisymm (String.not_lt.mp notAbove) (String.not_lt.mp notBelow)
          refine List.pairwise_cons.mpr ⟨fun entry member => ?_, parts.2⟩
          simpa [same] using parts.1 entry member

/-- The map with one entry put in, replacing the entry of the same key. -/
def insert (map : Keyed α) (key : String) (value : α) : Keyed α :=
  ⟨insertEntry key value map.entries, pairwise_insertEntry map.ascending⟩

/-- The map without the entry of a key. -/
def erase (map : Keyed α) (key : String) : Keyed α :=
  ⟨map.entries.filter (fun entry => entry.1 != key), map.ascending.filter _⟩

/-- The map of a list of entries; of entries with one key the last stays. -/
def ofList (entries : List (String × α)) : Keyed α :=
  entries.foldl (fun map entry => map.insert entry.1 entry.2) empty

/-- Change every value. -/
def map (transform : α → β) (source : Keyed α) : Keyed β :=
  ⟨source.entries.map fun entry => (entry.1, transform entry.2), by
    have kept := source.ascending
    exact List.pairwise_map.mpr (kept.imp fun below => below)⟩

@[simp] theorem entries_empty : (empty : Keyed α).entries = [] := rfl

@[simp] theorem get?_empty (key : String) : (empty : Keyed α).get? key = none := rfl

@[simp] theorem ofList_nil : ofList ([] : List (String × α)) = empty := rfl

end Keyed

end CodeAtlas
