import Mathlib.Data.List.Forall2

/-!
# Results of lists

An operation on every item of a list yields a list exactly when it succeeds on each item, and
then the results stand in the order of the items.
-/

namespace CodeAtlas

instance instDecidableEqResult {ε α : Type} [DecidableEq ε] [DecidableEq α] :
    DecidableEq (Except ε α)
  | .ok first, .ok second => decidable_of_iff (first = second) (by simp)
  | .error first, .error second => decidable_of_iff (first = second) (by simp)
  | .ok _, .error _ => .isFalse nofun
  | .error _, .ok _ => .isFalse nofun

variable {ε ζ α β : Type}

/-- A result that is not a value is an error. -/
theorem exists_error_iff {result : Except ε α} :
    (∃ problem, result = .error problem) ↔ ¬∃ value, result = .ok value := by
  cases result <;> simp

theorem bind_eq_ok_iff {result : Except ε α} {next : α → Except ε β} {value : β} :
    (result >>= next) = .ok value ↔ ∃ first, result = .ok first ∧ next first = .ok value := by
  cases result with
  | error problem => simp [bind, Except.bind]
  | ok first => simp [bind, Except.bind]

theorem mapError_eq_ok_iff {result : Except ε α} {change : ε → ζ} {value : α} :
    result.mapError change = .ok value ↔ result = .ok value := by
  cases result <;> simp [Except.mapError]

theorem toOption_eq_some_iff {result : Except ε α} {value : α} :
    result.toOption = some value ↔ result = .ok value := by
  cases result <;> simp [Except.toOption]

/-- What is shown of a result comes from its value. -/
theorem map_toOption_eq_some_iff {result : Except ε α} {view : α → β} {shown : β} :
    result.toOption.map view = some shown ↔
      ∃ value, result = .ok value ∧ view value = shown := by
  cases result <;> simp [Except.toOption]

theorem mapM_eq_ok_iff {operation : α → Except ε β} {items : List α} {values : List β} :
    items.mapM operation = .ok values ↔
      List.Forall₂ (fun item value => operation item = .ok value) items values := by
  induction items generalizing values with
  | nil => cases values <;> simp [pure, Except.pure]
  | cons item rest induction =>
      rw [List.mapM_cons, bind_eq_ok_iff]
      simp only [bind_eq_ok_iff]
      constructor
      · intro success
        obtain ⟨value, itemResult, others, restResult, whole⟩ := success
        cases whole
        exact .cons itemResult (induction.mp restResult)
      · intro results
        cases results with
        | @cons _ value _ others itemResult restResults =>
            exact ⟨value, itemResult, others, induction.mpr restResults, rfl⟩

theorem mapM_succeeds_iff {operation : α → Except ε β} {items : List α} :
    (∃ values, items.mapM operation = .ok values) ↔
      ∀ item ∈ items, ∃ value, operation item = .ok value := by
  simp only [mapM_eq_ok_iff]
  induction items with
  | nil => simp
  | cons item rest induction =>
      rw [List.forall_mem_cons, ← induction]
      constructor
      · intro success
        obtain ⟨values, results⟩ := success
        cases results with
        | cons itemResult restResults => exact ⟨⟨_, itemResult⟩, ⟨_, restResults⟩⟩
      · intro success
        obtain ⟨⟨value, itemResult⟩, ⟨others, restResults⟩⟩ := success
        exact ⟨value :: others, .cons itemResult restResults⟩

/-- What every result keeps of its item, the results together keep of the items. -/
theorem map_eq_map_of_mapM {γ : Type} {operation : α → Except ε β} {view : β → γ}
    {label : α → γ} {items : List α} {values : List β}
    (success : items.mapM operation = .ok values)
    (keeps : ∀ item value, operation item = .ok value → view value = label item) :
    values.map view = items.map label := by
  induction mapM_eq_ok_iff.mp success with
  | nil => rfl
  | @cons item value rest others itemResult restResults induction =>
      rw [List.map_cons, List.map_cons, keeps item value itemResult,
        induction (mapM_eq_ok_iff.mpr restResults)]

theorem exists_mem_of_forall₂ {relates : α → β → Prop} {items : List α} {values : List β}
    (related : List.Forall₂ relates items values) {value : β} (member : value ∈ values) :
    ∃ item ∈ items, relates item value := by
  induction related with
  | nil => cases member
  | @cons item first rest others isFirst _ induction =>
      rcases List.mem_cons.mp member with rfl | later
      · exact ⟨item, List.mem_cons_self, isFirst⟩
      · obtain ⟨source, sourceMember, isSource⟩ := induction later
        exact ⟨source, List.mem_cons_of_mem _ sourceMember, isSource⟩

/-- A result comes from an item. -/
theorem exists_item_of_mapM {operation : α → Except ε β} {items : List α} {values : List β}
    (success : items.mapM operation = .ok values) {value : β} (member : value ∈ values) :
    ∃ item ∈ items, operation item = .ok value :=
  exists_mem_of_forall₂ (mapM_eq_ok_iff.mp success) member

/-- A value that may be missing comes from an item as well. -/
theorem exists_item_of_mapM_eq_some {operation : α → Option β} {items : List α} {values : List β}
    (success : items.mapM operation = some values) {value : β} (member : value ∈ values) :
    ∃ item ∈ items, operation item = some value := by
  induction items generalizing values with
  | nil =>
      cases success
      simp at member
  | cons item rest induction =>
      rw [List.mapM_cons] at success
      obtain ⟨first, isFirst, success⟩ := Option.bind_eq_some_iff.mp success
      obtain ⟨others, areOthers, success⟩ := Option.bind_eq_some_iff.mp success
      cases success
      rcases List.mem_cons.mp member with rfl | later
      · exact ⟨item, List.mem_cons_self, isFirst⟩
      · obtain ⟨source, sourceMember, result⟩ := induction areOthers later
        exact ⟨source, List.mem_cons_of_mem _ sourceMember, result⟩

/-- One item without a value leaves the list without values. -/
theorem mapM_eq_none_of_mem {operation : α → Option β} {items : List α} {item : α}
    (member : item ∈ items) (missing : operation item = none) : items.mapM operation = none := by
  induction items with
  | nil => simp at member
  | cons first rest induction =>
      rw [List.mapM_cons]
      rcases List.mem_cons.mp member with rfl | later
      · rw [missing]
        rfl
      · cases operation first with
        | none => rfl
        | some value =>
            rw [induction later]
            rfl

end CodeAtlas
