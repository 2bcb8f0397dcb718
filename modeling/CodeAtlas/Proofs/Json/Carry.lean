import CodeAtlas.Json.Record
import CodeAtlas.Proofs.Json.Text
import CodeAtlas.Proofs.Keyed

/-!
# Documents carry values

A value that is written into a document and read back is the same up to what decoding does not
see: the order of the members of an object, and the precision of a number.  Both ways of reading a
text carry values in this sense, so that what is shown once of a decoder holds for both.
-/

namespace CodeAtlas.Json

/-- What becomes of a value in a document: texts, whole numbers and containers stay what they are,
a single-precision number is read as itself, and a name keeps the value that is under it. -/
structure Carries (carry : Json → Json) : Prop where
  null : carry .null = .null
  string (text : String) : carry (.string text) = .string text
  whole {value : Nat} (fits : value < 2 ^ 64) : carry (.ofNat value) = .ofNat value
  single {value : Binary32} (proper : value.IsProper) (finite : value.isFinite = true) :
    (carry (.ofSingle value)).asSingle? = some value
  array (items : List Json) : carry (.array items) = .array (items.map carry)
  object {members : List (String × Json)} (distinct : (members.map (·.1)).Nodup) :
    ∃ others, carry (.object members) = .object others ∧ (others.map (·.1)).Nodup ∧
      ∀ name, others.lookup name = (members.lookup name).map carry
  keyed {α : Type} (encode : α → Json) (map : Keyed α) :
    carry (.ofKeyed encode map) = .ofKeyed (fun value => carry (encode value)) map

/-! ## The two ways of reading -/

theorem asSingle?_reread {value : Binary32} (proper : value.IsProper)
    (finite : value.isFinite = true) : (ofSingle value).reread.asSingle? = some value := by
  obtain ⟨read, same, converted⟩ := JsonNumber.exists_reread_single proper finite
  rw [ofSingle, if_pos finite, reread, same, asSingle?, converted]

theorem reread_ofNat {value : Nat} (fits : value < 2 ^ 64) :
    (ofNat value).reread = .ofNat value := by
  rw [ofNat, reread, JsonNumber.reread_integer (by omega) (by omega)]

/-- What is read of a text as it stands. -/
theorem carries_reread : Carries reread where
  null := reread_null
  string := reread_string
  whole := reread_ofNat
  single := asSingle?_reread
  array := reread_array
  object := by
    intro members distinct
    refine ⟨_, reread_object members, ?_, fun name => ?_⟩
    · rwa [List.map_map]
    · induction members with
      | nil => rfl
      | cons member rest induction =>
          rw [List.map_cons, Keyed.lookup_cons_eq_ite, Keyed.lookup_cons_eq_ite,
            induction (List.nodup_cons.mp distinct).2]
          split <;> rfl
  keyed := by
    intro α encode map
    rw [ofKeyed, reread_object, ofKeyed, List.map_map]
    rfl

/-- A value that is not written at all. -/
theorem carries_id : Carries id where
  null := rfl
  string _ := rfl
  whole _ := rfl
  single _ finite := by
    rw [id_eq, ofSingle, if_pos finite]
    rfl
  array items := by rw [id_eq, List.map_id]
  object {members} distinct :=
    ⟨members, rfl, distinct, fun name => by rw [Option.map_id, id_eq]⟩
  keyed _ _ := rfl

@[simp] theorem merged_array (items : List Json) :
    (array items).merged = .array (items.map merged) := by
  rw [merged]
  congr 1
  induction items with
  | nil => rfl
  | cons item rest induction => rw [mergedItems, induction, List.map_cons]

theorem mergedMembers_eq (members : List (String × Json)) (done : Keyed Json) :
    mergedMembers members done = (members.map fun member => (member.1, member.2.merged)).foldl
      (fun map entry => map.insert entry.1 entry.2) done := by
  induction members generalizing done with
  | nil => rfl
  | cons member rest induction => rw [mergedMembers, induction, List.map_cons, List.foldl_cons]

theorem merged_object (members : List (String × Json)) :
    (object members).merged =
      .object (Keyed.ofList (members.map fun member => (member.1, member.2.merged))).entries := by
  rw [merged, mergedMembers_eq, Keyed.ofList]

/-- Of distinct names each keeps its value. -/
theorem lookup_entries_ofList {α : Type} {entries : List (String × α)}
    (distinct : (entries.map (·.1)).Nodup) (name : String) :
    (Keyed.ofList entries).entries.lookup name = entries.lookup name := by
  change (Keyed.ofList entries).get? name = _
  refine Option.ext fun value => ?_
  rw [Keyed.get?_ofList_eq_some_iff distinct]
  induction entries with
  | nil => simp
  | cons entry rest induction =>
      obtain ⟨absent, others⟩ := List.nodup_cons.mp distinct
      rw [Keyed.lookup_cons_eq_ite, List.mem_cons]
      split
      next same =>
        subst same
        have notLater : (entry.1, value) ∉ rest := fun member =>
          absent (List.mem_map_of_mem (f := (·.1)) member)
        simp [notLater, Prod.ext_iff, eq_comm]
      next different =>
        rw [← induction others]
        simp [Prod.ext_iff, different]

/-- What is read of a text that is kept as a value. -/
theorem carries_merged_reread : Carries fun value => value.reread.merged where
  null := by rw [reread_null]; rfl
  string text := by rw [reread_string]; rfl
  whole fits := by rw [reread_ofNat fits]; rfl
  single proper finite := by
    obtain ⟨read, same, converted⟩ := JsonNumber.exists_reread_single proper finite
    rw [ofSingle, if_pos finite, reread, same]
    exact congrArg some converted
  array items := by rw [reread_array, merged_array, List.map_map]; rfl
  object := by
    intro members distinct
    have names : ((members.map fun member => (member.1, member.2.reread.merged)).map (·.1)).Nodup := by
      rwa [List.map_map]
    refine ⟨(Keyed.ofList (members.map fun member =>
      (member.1, member.2.reread.merged))).entries, ?_, Keyed.nodup_keys _, fun name => ?_⟩
    · rw [reread_object, merged_object, List.map_map]
      rfl
    · exact (lookup_entries_ofList names name).trans
        (Keyed.lookup_map_value (fun value => value.reread.merged) members name)
  keyed := by
    intro α encode map
    have same := Keyed.ofList_entries (map.map fun value => (encode value).reread.merged)
    rw [ofKeyed, reread_object, merged_object, List.map_map, List.map_map, ofKeyed]
    exact congrArg (object ·.entries) same

/-! ## Decoding -/

namespace Record

variable {α : Type} {value : Json} {decode : Json → Option α}

theorem orNull_eq {decoded : α} (read : decode value = some decoded) (notNull : value ≠ .null) :
    orNull decode value = some (some decoded) := by
  unfold orNull
  split
  next => exact absurd rfl notNull
  next => rw [read, Option.map_some]

end Record

namespace Carries

variable {α : Type} {carry : Json → Json}

theorem asString? (carries : Carries carry) (text : String) :
    (carry (.string text)).asString? = some text := by
  rw [carries.string]
  rfl

theorem asNat32? (carries : Carries carry) {value : Nat} (fits : value < 2 ^ 32) :
    (carry (.ofNat value)).asNat32? = some value := by
  have bound : 0 ≤ (value : Int) ∧ (value : Int) < (Nat.pow 2 32 : Nat) :=
    ⟨Int.natCast_nonneg value, Int.ofNat_lt.mpr fits⟩
  rw [carries.whole (fits.trans (by decide)), ofNat, Json.asNat32?, asNatBelow?, if_pos bound,
    Int.toNat_natCast]

theorem asChoice? (carries : Carries carry) (name : String) :
    (carry (.string name)).asChoice? = some name := by
  rw [carries.string]
  rfl

/-- A list is decoded if each of its items is. -/
theorem asList? (carries : Carries carry) {encode : α → Json} {decode : Json → Option α}
    {items : List α} (decoded : ∀ item ∈ items, decode (carry (encode item)) = some item) :
    (carry (.array (items.map encode))).asList? decode = some items := by
  rw [carries.array, List.map_map, Json.asList?]
  induction items with
  | nil => rfl
  | cons item rest induction =>
      obtain ⟨first, others⟩ := List.forall_mem_cons.mp decoded
      rw [List.map_cons, List.mapM_cons, Function.comp_apply, first]
      simp [induction others]

theorem asStrings? (carries : Carries carry) (texts : List String) :
    (carry (.ofStrings texts)).asStrings? = some texts :=
  carries.asList? fun text _ => carries.asString? text

/-- A map is decoded if each of its values is. -/
theorem asKeyed? (carries : Carries carry) {encode : α → Json} {decode : Json → Option α}
    {map : Keyed α} (decoded : ∀ value ∈ map.values, decode (carry (encode value)) = some value) :
    (carry (.ofKeyed encode map)).asKeyed? decode = some map := by
  have entries {entries : List (String × α)}
      (decoded : ∀ entry ∈ entries, decode (carry (encode entry.2)) = some entry.2) :
      (entries.map fun entry => (entry.1, carry (encode entry.2))).mapM
        (fun member => (decode member.2).map fun value => (member.1, value)) = some entries := by
    induction entries with
    | nil => rfl
    | cons entry rest induction =>
        obtain ⟨first, others⟩ := List.forall_mem_cons.mp decoded
        rw [List.map_cons, List.mapM_cons, first]
        simp [induction others]
  rw [carries.keyed, ofKeyed, Json.asKeyed?,
    entries fun entry member => decoded entry.2 (List.mem_map_of_mem member), Option.map_some,
    Keyed.ofList_entries]

theorem asStringMap? (carries : Carries carry) (map : Keyed String) :
    (carry (.ofKeyed .string map)).asStringMap? = some map :=
  carries.asKeyed? fun text _ => carries.asString? text

theorem lookup_filter {entries : List (String × α)} {names : List String} {name : String}
    (member : name ∈ names) :
    (entries.filter fun entry => names.contains entry.1).lookup name = entries.lookup name := by
  induction entries with
  | nil => rfl
  | cons entry rest induction =>
      rw [Keyed.lookup_cons_eq_ite, List.filter_cons]
      split
      next kept => rw [Keyed.lookup_cons_eq_ite, induction]
      next dropped =>
        have different : name ≠ entry.1 := by
          rintro rfl
          exact dropped (List.contains_iff_mem.mpr member)
        rw [if_neg different, induction]

/-- A record that is read from members: a field has the value that was written under its name, and
none that was not written. -/
structure Holds (carry : Json → Json) (names : List String) (members : List (String × Json))
    (record : Record) : Prop where
  present (name : String) {value : Json} (known : name ∈ names)
    (member : (name, value) ∈ members) : record.fields.lookup name = some (carry value)
  absent (name : String) (known : name ∈ names) (missing : name ∉ members.map (·.1)) :
    record.fields.lookup name = none

namespace Holds

variable {names : List String} {members : List (String × Json)} {record : Record} {name : String}
  {value : Json} {decode : Json → Option α} {decoded : α}

theorem required (holds : Holds carry names members record) (name : String) (known : name ∈ names)
    (member : (name, value) ∈ members) (reads : decode (carry value) = some decoded) :
    record.required name decode = some decoded := by
  rw [Record.required, holds.present name known member, Option.bind_some, reads]

theorem defaulted (holds : Holds carry names members record) (name : String) (default : α)
    (known : name ∈ names)
    (member : (name, value) ∈ members) (reads : decode (carry value) = some decoded) :
    record.defaulted name default decode = some decoded := by
  rw [Record.defaulted, holds.present name known member]
  exact reads

/-- A field that is written as nothing or as a value. -/
theorem optional (holds : Holds carry names members record) (carries : Carries carry)
    (name : String) {encode : α → Json} (item : Option α) (known : name ∈ names)
    (member : (name, .ofOption encode item) ∈ members)
    (reads : ∀ item, decode (carry (encode item)) = some item)
    (notNull : ∀ item, carry (encode item) ≠ .null) :
    record.optional name decode = some item := by
  rw [Record.optional, holds.present name known member]
  cases item with
  | none => exact congrArg (Record.orNull decode) carries.null
  | some item => exact Record.orNull_eq (reads item) (notNull item)

/-- A field that takes its default when it is not written. -/
theorem defaulted_absent (holds : Holds carry names members record) (name : String) (default : α)
    (known : name ∈ names) (missing : name ∉ members.map (·.1)) :
    record.defaulted name default decode = some default := by
  rw [Record.defaulted, holds.absent name known missing]

end Holds

theorem lookup_eq_some_of_mem {entries : List (String × α)}
    (distinct : (entries.map (·.1)).Nodup) {name : String} {value : α}
    (member : (name, value) ∈ entries) : entries.lookup name = some value := by
  rw [← lookup_entries_ofList distinct]
  exact (Keyed.get?_ofList_eq_some_iff distinct).mpr member

/-- A record is read with the values that its fields were written with. -/
theorem record? (carries : Carries carry) (members : List (String × Json))
    (distinct : (members.map (·.1)).Nodup) (names : List String) :
    ∃ record, (carry (.object members)).record? names = some record ∧
      Holds carry names members record := by
  obtain ⟨others, same, othersDistinct, lookups⟩ := carries.object distinct
  have known : ((others.filter fun member => names.contains member.1).map (·.1)).Nodup :=
    othersDistinct.sublist (List.filter_sublist.map _)
  refine ⟨_, by rw [same, Json.record?, if_pos known], ?_, ?_⟩
  · intro name value isName member
    rw [lookup_filter isName, lookups, lookup_eq_some_of_mem distinct member, Option.map_some]
  · intro name isName missing
    have none : members.lookup name = none := by
      rw [List.lookup_eq_none_iff]
      intro entry member
      exact bne_iff_ne.mpr fun same => missing (same ▸ List.mem_map_of_mem member)
    rw [lookup_filter isName, lookups, none, Option.map_none]

end Carries

end CodeAtlas.Json
