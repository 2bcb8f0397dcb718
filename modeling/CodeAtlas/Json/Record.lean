import CodeAtlas.Json.Basic

/-!
# Reading records

How a record is read from a JSON value.  A record may stand as an object or as an array of its
fields in order.  An object may hold further members but none of the record's fields twice; an
array may hold no further items.
-/

namespace CodeAtlas.Json

/-- The fields found for a record.  In a record given by position every field before the last
found one is present. -/
structure Record where
  positional : Bool
  fields : List (String × Json)

/-- The fields of a record whose field names, in order, are `names`. -/
def record? (names : List String) : Json → Option Record
  | .object members =>
      let known := members.filter fun member => names.contains member.1
      if (known.map (·.1)).Nodup then some ⟨false, known⟩ else none
  | .array items =>
      if items.length ≤ names.length then some ⟨true, names.zip items⟩ else none
  | _ => none

namespace Record

variable {α : Type}

/-- A field that must be present. -/
def required (record : Record) (name : String) (decode : Json → Option α) : Option α :=
  (record.fields.lookup name).bind decode

/-- A field that takes a given value when it is absent. -/
def defaulted (record : Record) (name : String) (default : α) (decode : Json → Option α) :
    Option α :=
  match record.fields.lookup name with
  | some value => decode value
  | none => some default

/-- The value of an optional field: nothing for `null`. -/
def orNull (decode : Json → Option α) : Json → Option (Option α)
  | .null => some none
  | value => (decode value).map some

/-- A field that may be absent from an object, and `null` in any case. -/
def optional (record : Record) (name : String) (decode : Json → Option α) :
    Option (Option α) :=
  match record.fields.lookup name with
  | some value => orNull decode value
  | none => if record.positional then none else some none

end Record

def asBool? : Json → Option Bool
  | .bool value => some value
  | _ => none

def asString? : Json → Option String
  | .string text => some text
  | _ => none

/-- A choice among names: the name itself, or an object with `null` under the name alone. -/
def asChoice? : Json → Option String
  | .string name => some name
  | .object [(name, .null)] => some name
  | _ => none

/-- A whole number from zero up to the bound, the bound excluded. -/
def asNatBelow? (bound : Nat) : Json → Option Nat
  | .number (.integer value) =>
      if 0 ≤ value ∧ value < bound then some value.toNat else none
  | _ => none

def asNat32? : Json → Option Nat := asNatBelow? (Nat.pow 2 32)

def asNat64? : Json → Option Nat := asNatBelow? (Nat.pow 2 64)

/-- Any number, rounded to single precision. -/
def asSingle? : Json → Option Binary32
  | .number (.integer value) => some (.ofInt .single value)
  | .number (.double value) => some (value.convert .single)
  | .number (.single value) => some value
  | _ => none

/-- An array whose items all decode. -/
def asList? {α : Type} (decode : Json → Option α) : Json → Option (List α)
  | .array items => items.mapM decode
  | _ => none

def asStrings? : Json → Option (List String) := asList? asString?

/-- An object whose values all decode; of repeated names the last stays. -/
def asKeyed? {α : Type} (decode : Json → Option α) : Json → Option (Keyed α)
  | .object members =>
      (members.mapM fun member => (decode member.2).map fun value => (member.1, value)).map
        Keyed.ofList
  | _ => none

def asStringMap? : Json → Option (Keyed String) := asKeyed? asString?

end CodeAtlas.Json
