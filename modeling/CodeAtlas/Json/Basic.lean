import CodeAtlas.Keyed
import CodeAtlas.Number.Decimal

/-!
# JSON values

Values of JSON documents.  An object keeps its members in the order of the text, repeated
names included, because a record refuses a repeated field while a map lets the last win.
-/

namespace CodeAtlas

/-- A number of a document: whole, or a floating-point value of one of two precisions.  The
precision only decides how many digits are written. -/
inductive JsonNumber
  | integer (value : Int)
  | double (value : Binary64)
  | single (value : Binary32)
deriving DecidableEq, Repr

/-- A JSON value.  `unreadable` has the form of a value but stands for none: a number beyond
all finite ones, or a text with half of a surrogate pair. -/
inductive Json
  | null
  | bool (value : Bool)
  | number (value : JsonNumber)
  | string (text : String)
  | array (items : List Json)
  | object (members : List (String × Json))
  | unreadable
deriving Repr

namespace Json

instance : Inhabited Json := ⟨.null⟩

def ofNat (value : Nat) : Json := .number (.integer value)

def ofInt (value : Int) : Json := .number (.integer value)

/-- A single-precision number; infinities and values that are not numbers become `null`. -/
def ofSingle (value : Binary32) : Json :=
  if value.isFinite then .number (.single value) else .null

/-- A double-precision number; infinities and values that are not numbers become `null`. -/
def ofDouble (value : Binary64) : Json :=
  if value.isFinite then .number (.double value) else .null

def ofStrings (texts : List String) : Json := .array (texts.map .string)

/-- The object of a map, its members in the order of the keys. -/
def ofKeyed {α : Type} (encode : α → Json) (map : Keyed α) : Json :=
  .object (map.entries.map fun entry => (entry.1, encode entry.2))

def ofOption {α : Type} (encode : α → Json) : Option α → Json
  | some value => encode value
  | none => .null

mutual

/-- Whether every part of the value stands for a value. -/
def isReadable : Json → Bool
  | .unreadable => false
  | .array items => itemsReadable items
  | .object members => membersReadable members
  | _ => true

/-- Whether all items of a list are readable. -/
def itemsReadable : List Json → Bool
  | [] => true
  | item :: rest => item.isReadable && itemsReadable rest

/-- Whether all member values are readable. -/
def membersReadable : List (String × Json) → Bool
  | [] => true
  | (_, value) :: rest => value.isReadable && membersReadable rest

end

mutual

/-- How many containers are nested in one another. -/
def depth : Json → Nat
  | .array items => itemsDepth items + 1
  | .object members => membersDepth members + 1
  | _ => 0

/-- The greatest depth of the items of a list. -/
def itemsDepth : List Json → Nat
  | [] => 0
  | item :: rest => max item.depth (itemsDepth rest)

/-- The greatest depth of the member values. -/
def membersDepth : List (String × Json) → Nat
  | [] => 0
  | (_, value) :: rest => max value.depth (membersDepth rest)

end

mutual

/-- The value with every object put in the order of its names; of repeated names the last
stays. -/
def merged : Json → Json
  | .array items => .array (mergedItems items)
  | .object members => .object (mergedMembers members Keyed.empty).entries
  | value => value

/-- Merge every item of a list. -/
def mergedItems : List Json → List Json
  | [] => []
  | item :: rest => item.merged :: mergedItems rest

/-- Add the merged members to those seen so far. -/
def mergedMembers : List (String × Json) → Keyed Json → Keyed Json
  | [], done => done
  | (name, value) :: rest, done => mergedMembers rest (done.insert name value.merged)

end

/-- The first member of a name. -/
def member? (name : String) : Json → Option Json
  | .object members => members.lookup name
  | _ => none

/-- The object without the members of a name; other values stay. -/
def without (name : String) : Json → Json
  | .object members => .object (members.filter fun member => member.1 != name)
  | value => value

end Json

end CodeAtlas
