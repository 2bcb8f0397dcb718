import CodeAtlas.Knowledge
import CodeAtlas.Proofs.Keyed
import CodeAtlas.Proofs.Results

/-!
# Knowledge but for the clock

A learning whose document does not say when it was made is as old as its reading.  Apart from these
times, what is read of a document does not depend on when it is read.
-/

namespace CodeAtlas

/-! ## Results that differ in what is not looked at -/

section

variable {α β γ δ : Type}

theorem map_bind_congr {source : Option α} {first second : α → Option β} {view : β → γ}
    (same : ∀ value, (first value).map view = (second value).map view) :
    (source.bind first).map view = (source.bind second).map view := by
  cases source with
  | none => rfl
  | some value => exact same value

/-- Two values that may be missing and look the same are both missing or both there. -/
theorem eq_none_or_eq_some_of_map_eq {first second : Option α} {view : α → β}
    (same : first.map view = second.map view) :
    first = none ∧ second = none ∨
      ∃ value other, first = some value ∧ second = some other ∧ view value = view other := by
  cases first with
  | none => exact .inl ⟨rfl, Option.map_eq_none_iff.mp same.symm⟩
  | some value =>
      obtain ⟨other, isOther, sameView⟩ := Option.map_eq_some_iff.mp same.symm
      exact .inr ⟨value, other, rfl, isOther, sameView.symm⟩

theorem map_mapM_congr {first second : α → Option β} {view : β → γ} {items : List α}
    (same : ∀ item, (first item).map view = (second item).map view) :
    (items.mapM first).map (List.map view) = (items.mapM second).map (List.map view) := by
  induction items with
  | nil => rfl
  | cons item rest hypothesis =>
      rw [List.mapM_cons, List.mapM_cons]
      obtain ⟨isFirst, isSecond⟩ | ⟨value, other, isFirst, isSecond, head⟩ :=
        eq_none_or_eq_some_of_map_eq (same item)
      · rw [isFirst, isSecond]
        rfl
      · obtain ⟨areFirst, areSecond⟩ | ⟨values, others, areFirst, areSecond, tail⟩ :=
          eq_none_or_eq_some_of_map_eq hypothesis
        · rw [isFirst, isSecond, areFirst, areSecond]
          rfl
        · rw [isFirst, isSecond, areFirst, areSecond]
          exact congrArg some (congrArg₂ List.cons head tail)

end

/-- A learning without its times. -/
def Learning.timeless (learning : Learning) : Learning :=
  { learning with learnedAt := default, updatedAt := default }

/-- What knowledge says, without the times of learnings. -/
def Knowledge.timeless (knowledge : Knowledge) :
    Keyed Learning × List Decision × Keyed String :=
  (knowledge.learnings.map Learning.timeless, knowledge.decisions, knowledge.patterns)

theorem Learning.timeless_ofJson? (first second : Instant) (value : Json) :
    (ofJson? first value).map timeless = (ofJson? second value).map timeless := by
  rw [ofJson?, ofJson?]
  refine map_bind_congr fun record => ?_
  refine map_bind_congr fun modulePath => ?_
  refine map_bind_congr fun summary => ?_
  refine map_bind_congr fun purpose => ?_
  refine map_bind_congr fun keyFunctions => ?_
  refine map_bind_congr fun keyParameters => ?_
  refine map_bind_congr fun gotchas => ?_
  refine map_bind_congr fun dependencies => ?_
  refine map_bind_congr fun transplantTarget => ?_
  refine map_bind_congr fun sourceRef => ?_
  refine map_bind_congr fun confidence => ?_
  refine map_bind_congr fun version => ?_
  rw [Json.Record.defaulted, Json.Record.defaulted, Json.Record.defaulted, Json.Record.defaulted]
  cases record.fields.lookup "learned_at" with
  | none => cases record.fields.lookup "updated_at" with
    | none => rfl
    | some updated => cases isUpdated : Instant.ofJson? updated <;> simp [isUpdated, timeless]
  | some learned =>
      refine map_bind_congr fun learnedAt => ?_
      cases record.fields.lookup "updated_at" with
      | none => rfl
      | some updated => rfl

/-- Learnings of a document, whenever it is read. -/
theorem asKeyed?_timeless (first second : Instant) (value : Json) :
    (value.asKeyed? (Learning.ofJson? first)).map (Keyed.map Learning.timeless) =
      (value.asKeyed? (Learning.ofJson? second)).map (Keyed.map Learning.timeless) := by
  cases value with
  | object members =>
      have same (member : String × Json) :
          ((Learning.ofJson? first member.2).map fun value => (member.1, value)).map
              (fun entry => (entry.1, entry.2.timeless)) =
            ((Learning.ofJson? second member.2).map fun value => (member.1, value)).map
              (fun entry => (entry.1, entry.2.timeless)) := by
        have value := congrArg (Option.map fun value => (member.1, value))
          (Learning.timeless_ofJson? first second member.2)
        rw [Option.map_map, Option.map_map] at value ⊢
        exact value
      have parts : (members.mapM fun member =>
            (Learning.ofJson? first member.2).map fun value => (member.1, value)).map _ =
          (members.mapM fun member =>
            (Learning.ofJson? second member.2).map fun value => (member.1, value)).map _ :=
        map_mapM_congr same
      have maps := congrArg (Option.map Keyed.ofList) parts
      rw [Option.map_map, Option.map_map] at maps
      rw [Json.asKeyed?, Json.asKeyed?, Option.map_map, Option.map_map]
      have ordered : Keyed.map Learning.timeless ∘ Keyed.ofList =
          Keyed.ofList ∘ List.map fun entry => (entry.1, entry.2.timeless) :=
        funext fun entries => Keyed.map_ofList Learning.timeless entries
      rw [ordered]
      exact maps
  | _ => exact (rfl : (none : Option (Keyed Learning)) = none)

theorem Knowledge.timeless_ofJson? (first second : Instant) (value : Json) :
    (ofJson? first value).map timeless = (ofJson? second value).map timeless := by
  rw [ofJson?, ofJson?]
  refine map_bind_congr fun record => ?_
  refine map_bind_congr fun project => ?_
  refine map_bind_congr fun version => ?_
  refine map_bind_congr fun savedAt => ?_
  have learnings : (record.defaulted "learnings" .empty
        (Json.asKeyed? (Learning.ofJson? first))).map (Keyed.map Learning.timeless) =
      (record.defaulted "learnings" .empty
        (Json.asKeyed? (Learning.ofJson? second))).map (Keyed.map Learning.timeless) := by
    rw [Json.Record.defaulted, Json.Record.defaulted]
    cases record.fields.lookup "learnings" with
    | none => rfl
    | some value => exact asKeyed?_timeless first second value
  obtain ⟨isFirst, isSecond⟩ | ⟨held, again, isFirst, isSecond, same⟩ :=
    eq_none_or_eq_some_of_map_eq learnings
  · rw [isFirst, isSecond]
  · simp only [isFirst, isSecond, Option.bind_eq_bind, Option.bind_some]
    refine map_bind_congr fun decisions => ?_
    refine map_bind_congr fun patterns => ?_
    refine map_bind_congr fun runs => ?_
    exact congrArg (fun held => some (held, decisions, patterns)) same

end CodeAtlas
