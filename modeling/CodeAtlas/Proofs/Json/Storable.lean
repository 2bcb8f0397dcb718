import CodeAtlas.Proofs.Json.Carry
import CodeAtlas.Proofs.Json.Read

/-!
# Values that documents keep

A text is kept as a value if each of its parts stands for a value and they are not nested too deep.
What is written of such a value is kept again.
-/

namespace CodeAtlas.Json

/-- A value that can be kept: its numbers are as texts hold them, each part stands for a value, and
no more containers are nested in one another than a limit allows. -/
inductive IsStorable : Nat → Json → Prop
  | null (limit : Nat) : IsStorable limit .null
  | bool (limit : Nat) (value : Bool) : IsStorable limit (.bool value)
  | number (limit : Nat) {value : JsonNumber} (read : value.IsRead) :
      IsStorable limit (.number value)
  | string (limit : Nat) (text : String) : IsStorable limit (.string text)
  | array {limit : Nat} {items : List Json} (kept : ∀ item ∈ items, IsStorable limit item) :
      IsStorable (limit + 1) (.array items)
  | object {limit : Nat} {members : List (String × Json)}
      (kept : ∀ member ∈ members, IsStorable limit member.2) :
      IsStorable (limit + 1) (.object members)

variable {value : Json} {limit : Nat} {text : String}

/-! ## Parts of containers -/

theorem itemsReadable_iff {items : List Json} :
    itemsReadable items = true ↔ ∀ item ∈ items, item.isReadable = true := by
  induction items with
  | nil => simp [itemsReadable]
  | cons item rest hypothesis => simp [itemsReadable, hypothesis]

theorem membersReadable_iff {members : List (String × Json)} :
    membersReadable members = true ↔ ∀ member ∈ members, member.2.isReadable = true := by
  induction members with
  | nil => simp [membersReadable]
  | cons member rest hypothesis => simp [membersReadable, hypothesis]

theorem itemsDepth_le_iff {items : List Json} :
    itemsDepth items ≤ limit ↔ ∀ item ∈ items, item.depth ≤ limit := by
  induction items with
  | nil => simp [itemsDepth]
  | cons item rest hypothesis => simp [itemsDepth, hypothesis]

theorem membersDepth_le_iff {members : List (String × Json)} :
    membersDepth members ≤ limit ↔ ∀ member ∈ members, member.2.depth ≤ limit := by
  induction members with
  | nil => simp [membersDepth]
  | cons member rest hypothesis => simp [membersDepth, hypothesis]

/-! ## What is kept -/

theorem IsStorable.of_isRead (read : value.IsRead) (readable : value.isReadable = true)
    (shallow : value.depth ≤ limit) : value.IsStorable limit := by
  induction read generalizing limit with
  | null => exact .null limit
  | bool held => exact .bool limit held
  | number isRead => exact .number limit isRead
  | string content => exact .string limit content
  | @array items _ hypothesis =>
      rw [isReadable, itemsReadable_iff] at readable
      rw [depth] at shallow
      obtain _ | limit := limit
      · exact absurd shallow (Nat.not_succ_le_zero _)
      · have inside := itemsDepth_le_iff.mp (Nat.le_of_succ_le_succ shallow)
        exact .array fun item member => hypothesis item member (readable item member)
          (inside item member)
  | @object members _ hypothesis =>
      rw [isReadable, membersReadable_iff] at readable
      rw [depth] at shallow
      obtain _ | limit := limit
      · exact absurd shallow (Nat.not_succ_le_zero _)
      · have inside := membersDepth_le_iff.mp (Nat.le_of_succ_le_succ shallow)
        exact .object fun item member => hypothesis item member (readable item member)
          (inside item member)
  | unreadable => cases readable

theorem IsStorable.isReadable (storable : value.IsStorable limit) : value.isReadable = true := by
  induction storable with
  | array kept hypothesis => exact itemsReadable_iff.mpr hypothesis
  | object kept hypothesis => exact membersReadable_iff.mpr hypothesis
  | _ => rfl

theorem IsStorable.depth_le (storable : value.IsStorable limit) : value.depth ≤ limit := by
  induction storable with
  | array kept hypothesis => exact Nat.succ_le_succ (itemsDepth_le_iff.mpr hypothesis)
  | object kept hypothesis => exact Nat.succ_le_succ (membersDepth_le_iff.mpr hypothesis)
  | _ => exact Nat.zero_le _

theorem IsStorable.merged (storable : value.IsStorable limit) : value.merged.IsStorable limit := by
  induction storable with
  | null limit => exact .null limit
  | bool limit held => exact .bool limit held
  | number limit read => exact .number limit read
  | string limit content => exact .string limit content
  | @array limit items kept hypothesis =>
      rw [merged_array]
      refine .array fun item member => ?_
      obtain ⟨before, isItem, rfl⟩ := List.mem_map.mp member
      exact hypothesis before isItem
  | @object limit members kept hypothesis =>
      rw [merged_object]
      refine .object fun member isMember => ?_
      obtain ⟨before, isBefore, rfl⟩ := List.mem_map.mp (Keyed.mem_of_mem_ofList isMember)
      exact hypothesis before isBefore

theorem IsStorable.without (storable : value.IsStorable limit) (name : String) :
    (value.without name).IsStorable limit := by
  cases storable with
  | object kept => exact .object fun member isMember => kept member (List.mem_filter.mp isMember).1
  | null => exact .null limit
  | bool => exact .bool limit _
  | number _ read => exact .number limit read
  | string => exact .string limit _
  | array kept => exact .array kept

/-- What is read of the text of a value that is kept is kept. -/
theorem IsStorable.reread (storable : value.IsStorable limit) : value.reread.IsStorable limit := by
  induction storable with
  | null limit => rw [reread_null]; exact .null limit
  | bool limit held => rw [Json.reread]; exact .bool limit held
  | @number limit held read =>
      rw [Json.reread]
      cases held with
      | integer whole =>
          rw [JsonNumber.reread_integer read.1 read.2]
          exact .number limit read
      | double real =>
          obtain ⟨again, same, finite⟩ := JsonNumber.exists_reread_double read.1 read.2
          have isRead := Token.isRead_of_bareValue? (JsonNumber.exists_bareValue? (.double real))
          rw [same] at isRead ⊢
          cases isRead with
          | number found => exact .number limit found
      | single real => exact read.elim
  | string limit content => rw [reread_string]; exact .string limit content
  | @array limit items kept hypothesis =>
      rw [reread_array]
      refine .array fun item member => ?_
      obtain ⟨before, isItem, rfl⟩ := List.mem_map.mp member
      exact hypothesis before isItem
  | @object limit members kept hypothesis =>
      rw [reread_object]
      refine .object fun member isMember => ?_
      obtain ⟨before, isBefore, rfl⟩ := List.mem_map.mp isMember
      exact hypothesis before isBefore

/-- A text that is kept as a value. -/
theorem isStorable_of_ofText (kept : ofText text = some value) : value.IsStorable depthLimit := by
  obtain ⟨read, isRead, kept⟩ := Option.bind_eq_some_iff.mp kept
  split at kept
  next accepted =>
    cases kept
    obtain ⟨readable, shallow⟩ := Bool.and_eq_true_iff.mp accepted
    exact (IsStorable.of_isRead (isRead_of_ofText? isRead) readable (of_decide_eq_true shallow)).merged
  next => cases kept

/-- The text of a value that can be kept is kept. -/
theorem IsStorable.ofText_pretty (storable : value.IsStorable depthLimit) :
    ofText value.pretty = some value.reread.merged := by
  have again := storable.reread
  rw [ofText, ofText?_pretty, Option.bind_eq_bind, Option.bind_some, again.isReadable,
    if_pos (by simpa using again.depth_le)]

theorem IsStorable.isRead (storable : value.IsStorable limit) : value.IsRead := by
  induction storable with
  | null => exact .null
  | bool limit held => exact .bool held
  | number limit read => exact .number read
  | string limit content => exact .string content
  | array kept hypothesis => exact .array hypothesis
  | object kept hypothesis => exact .object hypothesis

/-- Objects that are kept have their members in the order of distinct names, and so have the
objects inside of them. -/
theorem exists_keyed_of_merged {members : List (String × Json)}
    (merged : value.merged = .object members) :
    ∃ map : Keyed Json, members = map.entries ∧
      ∀ member ∈ members, ∃ before : Json, member.2 = before.merged := by
  cases value with
  | object before =>
      rw [merged_object] at merged
      cases merged
      refine ⟨_, rfl, fun member isMember => ?_⟩
      obtain ⟨entry, -, rfl⟩ := List.mem_map.mp (Keyed.mem_of_mem_ofList isMember)
      exact ⟨entry.2, rfl⟩
  | array items => rw [merged_array] at merged; cases merged
  | _ => cases merged

theorem exists_merged_of_ofText (kept : ofText text = some value) :
    ∃ before : Json, value = before.merged := by
  obtain ⟨read, isRead, kept⟩ := Option.bind_eq_some_iff.mp kept
  split at kept
  next => exact ⟨read, (Option.some.inj kept).symm⟩
  next => cases kept

end CodeAtlas.Json
