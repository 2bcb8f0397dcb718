import CodeAtlas.Proofs.Source.CFamily.Step
import CodeAtlas.Proofs.Source.Entry

/-!
# Reading lines of C and C++ twice

Two readings go on alike as long as their declarations have the same names, kinds and members, and
so does the difference if one declaration has more members in one of them.
-/

namespace CodeAtlas.Source.CFamily

open CodeAtlas.Text CodeAtlas.Text.Pattern

/-- The entry with the members that a line of its body declares. -/
def extendEntry (raw : List Char) (entry : Entry) : Entry :=
  { entry with members := entry.members ++ (Reading.membersOf entry.kind raw).map String.ofList }

theorem modify_eq_of_eq {α : Type} {entries : List α} {position : Nat} {f g : α → α}
    (same : ∀ entry ∈ entries[position]?, f entry = g entry) :
    entries.modify position f = entries.modify position g := by
  apply List.ext_getElem?
  intro index
  by_cases here : position = index
  · subst here
    rw [List.getElem?_modify_eq, List.getElem?_modify_eq]
    cases found : entries[position]? with
    | none => rfl
    | some entry => exact congrArg some (same entry found)
  · rw [List.getElem?_modify_ne _ _ here, List.getElem?_modify_ne _ _ here]

theorem modify_append {α : Type} {entries more : List α} {position : Nat} {f : α → α}
    (within : position < entries.length) :
    (entries ++ more).modify position f = entries.modify position f ++ more := by
  induction entries generalizing position with
  | nil => exact absurd within (Nat.not_lt_zero _)
  | cons entry entries induction =>
      cases position with
      | zero => rfl
      | succ position =>
          rw [List.cons_append, List.modify_succ_cons, List.modify_succ_cons,
            induction (Nat.lt_of_succ_lt_succ within), List.cons_append]

/-- Two readings are alike but for further members, which a declaration of the first one has after
so many that it has in both. -/
structure Ahead (lined : Bool) (position count : Nat) (extra : List String)
    (first second : Reading) : Prop where
  braces : first.braces = second.braces
  entries : entriesOf lined first.declarations =
    (entriesOf lined second.declarations).modify position (Entry.insert count extra)
  early : ∀ entry ∈ (entriesOf lined second.declarations)[position]?, count ≤ entry.members.length
  within : count = 0 ∧ extra = [] ∨ position < second.declarations.length
  lines : lined = true → first.count = second.count ∧ first.imports = second.imports

namespace Ahead

variable {lined : Bool} {position count : Nat} {extra : List String} {first second : Reading}
  {language : Language} {raw next : List Char}

theorem keys (ahead : Ahead lined position count extra first second) :
    first.declarations.map (fun d => (d.kind, d.name)) =
      second.declarations.map (fun d => (d.kind, d.name)) := by
  have same := congrArg (List.map fun entry : Entry => (entry.kind, entry.name)) ahead.entries
  have unchanged : ∀ entry : Entry,
      ((entry.insert count extra).kind, (entry.insert count extra).name) =
      id (entry.kind, entry.name) := fun _ => rfl
  rw [map_modify unchanged, List.modify_id] at same
  rw [entriesOf, entriesOf, List.map_map, List.map_map] at same
  exact same

theorem length_eq (ahead : Ahead lined position count extra first second) :
    first.declarations.length = second.declarations.length := by
  simpa using congrArg List.length ahead.keys

/-- Both readings know the same kinds and names. -/
theorem findIdx?_eq (ahead : Ahead lined position count extra first second)
    (kind : InterfaceKind) (name : String) :
    first.declarations.findIdx? (fun d => d.kind == kind && d.name == name) =
      second.declarations.findIdx? (fun d => d.kind == kind && d.name == name) := by
  have keyed (declarations : List Declaration) :
      declarations.findIdx? (fun d => d.kind == kind && d.name == name) =
        (declarations.map fun d => (d.kind, d.name)).findIdx? fun key =>
          key.1 == kind && key.2 == name := by
    rw [List.findIdx?_map]
    rfl
  rw [keyed, keyed, ahead.keys]

theorem append {declaration other : Declaration}
    (ahead : Ahead lined position count extra first second)
    (same : entryOf lined declaration = entryOf lined other) :
    Ahead lined position count extra
      { first with declarations := first.declarations ++ [declaration] }
      { second with declarations := second.declarations ++ [other] } := by
  have appended (declarations : List Declaration) (declaration : Declaration) :
      entriesOf lined (declarations ++ [declaration]) =
        entriesOf lined declarations ++ [entryOf lined declaration] := List.map_append
  refine ⟨ahead.braces, ?_, ?_, ?_, ahead.lines⟩
  · rw [appended, appended, ahead.entries, same]
    rcases ahead.within with ⟨rfl, rfl⟩ | within
    · rw [Entry.insert_nil, List.modify_id, List.modify_id]
    · rw [modify_append (by rwa [length_entriesOf])]
  · rw [appended]
    rcases ahead.within with ⟨rfl, rfl⟩ | within
    · exact fun _ _ => Nat.zero_le _
    · rw [List.getElem?_append_left (by rwa [length_entriesOf])]
      exact ahead.early
  · refine ahead.within.imp_right fun within => ?_
    rw [List.length_append]
    exact Nat.lt_add_right _ within

theorem addOnce {declaration other : Declaration}
    (ahead : Ahead lined position count extra first second)
    (same : entryOf lined declaration = entryOf lined other) :
    (first.addOnce declaration).2 = (second.addOnce other).2 ∧
      Ahead lined position count extra (first.addOnce declaration).1 (second.addOnce other).1 := by
  have kind : declaration.kind = other.kind := congrArg Entry.kind same
  have name : declaration.name = other.name := congrArg Entry.name same
  have found := ahead.findIdx?_eq other.kind other.name
  rw [Reading.addOnce, Reading.addOnce, kind, name, found]
  cases second.declarations.findIdx? fun d => d.kind == other.kind && d.name == other.name with
  | some position => exact ⟨rfl, ahead⟩
  | none => exact ⟨ahead.length_eq, ahead.append same⟩

theorem modify (ahead : Ahead lined position count extra first second) (other : Nat) :
    Ahead lined position count extra
      { first with declarations := first.declarations.modify other (Reading.extendWith raw) }
      { second with
        declarations := second.declarations.modify other (Reading.extendWith raw) } := by
  have modified (declarations : List Declaration) :
      entriesOf lined (declarations.modify other (Reading.extendWith raw)) =
        (entriesOf lined declarations).modify other (extendEntry raw) :=
    map_modify fun _ => rfl
  refine ⟨ahead.braces, ?_, ?_, ?_, ahead.lines⟩
  · rw [modified, modified, ahead.entries]
    by_cases same : position = other
    · subst same
      rw [List.modify_modify_eq, List.modify_modify_eq]
      refine modify_eq_of_eq fun entry member => ?_
      have early := ahead.early entry member
      simp only [Function.comp, Entry.insert, extendEntry, List.take_append_of_le_length early,
        List.drop_append_of_le_length early, List.append_assoc]
    · exact List.modify_modify_ne _ _ _ same
  · rw [modified]
    intro entry member
    rw [List.getElem?_modify] at member
    obtain ⟨old, found, rfl⟩ := Option.map_eq_some_iff.mp member
    have early := ahead.early old found
    split
    · simp only [extendEntry, List.length_append]
      omega
    · exact early
  · rw [List.length_modify]
    exact ahead.within

theorem advancing (ahead : Ahead lined position count extra first second) :
    Ahead lined position count extra (first.advancing raw) (second.advancing raw) where
  braces := congrArg (Braces.advance · raw) ahead.braces
  entries := ahead.entries
  early := ahead.early
  within := ahead.within
  lines := ahead.lines

/-- A declaration with further members is another one, unless there are none. -/
theorem entries_eq_iff (ahead : Ahead lined position count extra first second) :
    entriesOf lined first.declarations = entriesOf lined second.declarations ↔ extra = [] := by
  rw [ahead.entries]
  constructor
  · intro same
    by_contra some
    have within := ahead.within.resolve_left fun none => some none.2
    rw [← length_entriesOf] at within
    obtain ⟨front, entry, back, split, _, modified⟩ :=
      List.exists_of_modify (Entry.insert count extra) within
    rw [modified, split, List.append_right_inj] at same
    have members := congrArg (List.length ∘ Entry.members) (List.cons.inj same).1
    simp only [Function.comp, Entry.insert, List.length_append, List.length_take, List.length_drop]
      at members
    exact some (List.length_eq_zero_iff.mp (by omega))
  · rintro rfl
    rw [Entry.insert_nil, List.modify_id]

end Ahead

namespace Reading

theorem opened_addOnce {reading : Reading} {declaration : Declaration} :
    (reading.addOnce declaration).1.opened = reading.opened := by
  rw [addOnce]
  split <;> rfl

end Reading

/-- Two readings that are alike, but for further members, and go on alike. -/
structure AheadOpen (lined : Bool) (position count : Nat) (extra : List String)
    (first second : Reading) : Prop extends Ahead lined position count extra first second where
  opened : first.opened = second.opened

namespace AheadOpen

variable {lined : Bool} {position count : Nat} {extra : List String} {first second : Reading}
  {language : Language} {raw other next : List Char}

theorem refl (reading : Reading) : AheadOpen lined 0 0 [] reading reading where
  braces := rfl
  entries := by rw [Entry.insert_nil, List.modify_id]
  early _ _ := Nat.zero_le _
  within := .inl ⟨rfl, rfl⟩
  lines _ := ⟨rfl, rfl⟩
  opened := rfl

theorem put {found similar : Reading.Found}
    (ahead : AheadOpen lined position count extra first second) (name : found.name = similar.name)
    (kind : found.kind = similar.kind) (isRecord : found.isRecord = similar.isRecord) :
    AheadOpen lined position count extra (first.put next found) (second.put next similar) := by
  have same : entryOf lined (first.declaration found.name found.kind found.signature found.detail) =
      entryOf lined
        (second.declaration similar.name similar.kind similar.signature similar.detail) := by
    rw [name, kind]
    cases lined with
    | false => rfl
    | true => simp only [entryOf, Reading.declaration, (ahead.lines rfl).1]
  obtain ⟨place, added⟩ := ahead.toAhead.addOnce same
  have opens : first.opens next = second.opens next := by
    rw [Reading.opens, Reading.opens, ahead.braces]
  rw [Reading.put, Reading.put, isRecord, place, opens]
  cases similar.isRecord with
  | true => exact ⟨⟨added.braces, added.entries, added.early, added.within, added.lines⟩, rfl⟩
  | false =>
      refine ⟨added, ?_⟩
      rw [if_neg Bool.false_ne_true, if_neg Bool.false_ne_true, Reading.opened_addOnce,
        Reading.opened_addOnce]
      exact ahead.opened

theorem putAll {found similar : Option Reading.Found}
    (ahead : AheadOpen lined position count extra first second)
    (alike : found.map (fun f => (f.name, f.kind, f.isRecord)) =
      similar.map (fun f => (f.name, f.kind, f.isRecord))) :
    AheadOpen lined position count extra (first.putAll next found)
      (second.putAll next similar) := by
  cases found with
  | none =>
      cases similar with
      | none => exact ahead
      | some similar => cases alike
  | some found =>
      cases similar with
      | none => cases alike
      | some similar =>
          simp only [Option.map_some, Option.some.injEq, Prod.mk.injEq] at alike
          exact ahead.put alike.1 alike.2.1 alike.2.2

theorem passing {firstBefore secondBefore : Reading}
    (ahead : AheadOpen lined position count extra first second)
    (counts : lined = true → firstBefore.count = secondBefore.count) :
    AheadOpen lined position count extra (firstBefore.passing raw first)
      (secondBefore.passing other second) where
  braces := ahead.braces
  entries := ahead.entries
  early := ahead.early
  within := ahead.within
  lines isLined := ⟨congrArg (· + 1) (counts isLined), (ahead.lines isLined).2⟩
  opened := ahead.opened

theorem advancing (ahead : AheadOpen lined position count extra first second) :
    AheadOpen lined position count extra (first.advancing raw) (second.advancing raw) :=
  ⟨ahead.toAhead.advancing, ahead.opened⟩

theorem withImport {captures : Captures}
    (ahead : AheadOpen lined position count extra first second) :
    AheadOpen lined position count extra (first.withImport captures)
      (second.withImport captures) where
  braces := ahead.braces
  entries := ahead.entries
  early := ahead.early
  within := ahead.within
  lines isLined := by
    obtain ⟨counts, imports⟩ := ahead.lines isLined
    exact ⟨counts, by simp only [Reading.withImport, counts, imports]⟩
  opened := ahead.opened

theorem takeMember (ahead : AheadOpen lined position count extra first second) :
    AheadOpen lined position count extra (first.takeMember raw) (second.takeMember raw) := by
  cases opened : second.opened with
  | none =>
      rw [Reading.takeMember_of_none (ahead.opened.trans opened), Reading.takeMember_of_none opened]
      exact ahead
  | some other =>
      rw [Reading.takeMember_of_some (ahead.opened.trans opened), Reading.takeMember_of_some opened]
      exact ⟨ahead.toAhead.modify other, ahead.opened⟩

/-- A line outside of all braces closes what is open. -/
theorem of_outside (ahead : Ahead lined position count extra first second)
    (noScope : scopeLine.match? raw = none) (noInclude : includeLine.match? raw = none)
    (outside : second.braces.depth = 0) :
    AheadOpen lined position count extra (first.take language raw next)
      (second.take language raw next) := by
  have counts (isLined : lined = true) : first.count = second.count := (ahead.lines isLined).1
  have firstOutside : first.braces.depth = 0 := by rwa [ahead.braces]
  have onwards : Ahead lined position count extra (first.advancing raw) (second.advancing raw) :=
    ahead.advancing
  have closed : AheadOpen lined position count extra (first.advancing raw).closing
      (second.advancing raw).closing :=
    ⟨⟨onwards.braces, onwards.entries, onwards.early, onwards.within, onwards.lines⟩, rfl⟩
  rw [Reading.take_of_outside noScope noInclude firstOutside,
    Reading.take_of_outside noScope noInclude outside]
  exact (closed.putAll rfl).passing counts

theorem take (ahead : AheadOpen lined position count extra first second) :
    AheadOpen lined position count extra (first.take language raw next)
      (second.take language raw next) := by
  have counts (isLined : lined = true) : first.count = second.count := (ahead.lines isLined).1
  cases scope : scopeLine.match? raw with
  | some captures =>
      have isScope : (scopeLine.match? raw).isSome = true := by rw [scope]; rfl
      rw [Reading.take_of_scope isScope, Reading.take_of_scope isScope]
      exact ahead.passing counts
  | none =>
      cases included : includeLine.match? raw with
      | some captures =>
          rw [Reading.take_of_include scope included, Reading.take_of_include scope included]
          exact ahead.advancing.withImport.passing counts
      | none =>
          have depth : first.braces.depth = second.braces.depth := by rw [ahead.braces]
          rcases Nat.lt_trichotomy second.braces.depth 1 with outside | inside | deep
          · exact of_outside ahead.toAhead scope included (Nat.lt_one_iff.mp outside)
          · rw [Reading.take_of_inside scope included (depth.trans inside),
              Reading.take_of_inside scope included inside]
            exact ahead.advancing.takeMember.passing counts
          · rw [Reading.take_of_deep scope included (depth ▸ deep),
              Reading.take_of_deep scope included deep]
            exact ahead.advancing.passing counts

theorem readLines (ahead : AheadOpen lined position count extra first second)
    (lines : List (List Char)) :
    AheadOpen lined position count extra (CFamily.readLines language first lines)
      (CFamily.readLines language second lines) := by
  induction lines generalizing first second with
  | nil => exact ahead
  | cons line lines induction => exact induction ahead.take

end AheadOpen

end CodeAtlas.Source.CFamily
