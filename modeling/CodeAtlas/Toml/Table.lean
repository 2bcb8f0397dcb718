import CodeAtlas.Json.Basic

/-!
# Tables of TOML

How the tables of a document grow.  A table is made once: by a header, by a dotted key, or
written in line; a table that only leads to others may still get a header of its own.
-/

namespace CodeAtlas.Toml

/-- How a table came to be. -/
inductive Origin
  /-- By a header of its own. -/
  | header
  /-- On the way to the table of a header. -/
  | leading
  /-- On the way of a dotted key. -/
  | dotted
deriving DecidableEq, Repr

/-- A value, a table that may still grow, or the tables of a repeated header (the last one
first). -/
inductive Item
  | value (value : Json)
  | table (origin : Origin) (entries : List (String × Item))
  | tables (all : List (List (String × Item)))
deriving Repr

abbrev Entries := List (String × Item)

namespace Entries

/-- Replace the item of a key, or add it at the end. -/
def put (entries : Entries) (key : String) (item : Item) : Entries :=
  if entries.any (·.1 == key) then
    entries.map fun entry => if entry.1 == key then (key, item) else entry
  else entries ++ [(key, item)]

/-- Change the table that a path leads to, making the tables on the way.  A dotted key does not
pass through a table with a header. -/
def update? (isDotted : Bool) (change : Origin → Entries → Option Entries) (origin : Origin) :
    List String → Entries → Option Entries
  | [], entries => change origin entries
  | key :: path, entries => do
      match entries.lookup key with
      | none =>
          let made := if isDotted then Origin.dotted else .leading
          return entries.put key (.table made (← update? isDotted change made path []))
      | some (.table found inner) =>
          if isDotted && found == .header then none
          else return entries.put key (.table found (← update? isDotted change found path inner))
      | some (.tables (last :: others)) =>
          return entries.put key
            (.tables ((← update? isDotted change .header path last) :: others))
      | some _ => none

/-- Add an entry of a new key. -/
def addNew? (key : String) (item : Item) (entries : Entries) : Option Entries :=
  if entries.any (·.1 == key) then none else some (entries ++ [(key, item)])

/-- Add a value under a dotted key.  The last table on the way must come from dotted keys. -/
def addValue? (path : List String) (key : String) (value : Json) (entries : Entries) :
    Option Entries :=
  entries.update? true (fun origin inner =>
    if (origin == .dotted) == path.isEmpty then none
    else inner.addNew? key (.value value)) .header path

/-- Begin the table of a header.  Only a table that led to others may be there already. -/
def openTable? (path : List String) (key : String) (entries : Entries) : Option Entries :=
  entries.update? false (fun _ inner =>
    match inner.lookup key with
    | none => some (inner ++ [(key, .table .header [])])
    | some (.table .leading found) => some (inner.put key (.table .header found))
    | some _ => none) .header path

/-- Begin the next table of a repeated header. -/
def openNextTable? (path : List String) (key : String) (entries : Entries) : Option Entries :=
  entries.update? false (fun _ inner =>
    match inner.lookup key with
    | none => some (inner ++ [(key, .tables [[]])])
    | some (.tables all) => some (inner.put key (.tables ([] :: all)))
    | some _ => none) .header path

/-- Change the table that the last header began. -/
def withCurrent? (path : List String) (change : Entries → Option Entries) (entries : Entries) :
    Option Entries :=
  entries.update? false (fun _ inner => change inner) .header path

end Entries

mutual

/-- The value that an item stands for. -/
def Item.toJson : Item → Json
  | .value value => value
  | .table _ entries => .object (entriesJson entries)
  | .tables all => .array (tablesJson all).reverse

/-- The members of a table. -/
def entriesJson : List (String × Item) → List (String × Json)
  | [] => []
  | (key, item) :: rest => (key, item.toJson) :: entriesJson rest

/-- The values of repeated tables. -/
def tablesJson : List (List (String × Item)) → List Json
  | [] => []
  | entries :: rest => .object (entriesJson entries) :: tablesJson rest

end

end CodeAtlas.Toml
