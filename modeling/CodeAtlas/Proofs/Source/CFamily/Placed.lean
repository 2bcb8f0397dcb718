import CodeAtlas.Proofs.Source.CFamily.Step
import CodeAtlas.Proofs.Source.Numbered
import CodeAtlas.Proofs.Text.Pattern
import Mathlib.Data.List.Nodup

/-!
# Places in C and C++ files

A line of C or C++ gives at most one file to include or one declaration, and numbers it.  A
declaration is added only if none of its kind and name is there, and the position that is kept while
a body is open is that of a declaration.
-/

namespace CodeAtlas.Source.CFamily

open CodeAtlas.Text CodeAtlas.Text.Pattern

/-- What tells declarations apart. -/
def keyOf (declaration : Declaration) : InterfaceKind × String :=
  (declaration.kind, declaration.name)

namespace Reading

variable {language : Language} {reading : Reading} {raw next : List Char}

/-- What has been read has its numbers and kinds that the language has, no two declarations have
the same kind and name, and an open body belongs to a declaration. -/
structure IsPlaced (reading : Reading) (language : Language) : Prop where
  placed : Placed language reading.count (reading.imports.map (·.line)).reverse (placesOf reading)
  distinct : (reading.declarations.map keyOf).Nodup
  opened : ∀ position ∈ reading.opened, position < reading.declarations.length

/-- A declaration is at a position already, or new and added at the end. -/
theorem addOnce_cases (reading : Reading) (declaration : Declaration) :
    (∃ position < reading.declarations.length,
      reading.addOnce declaration = (reading, position)) ∨
    keyOf declaration ∉ reading.declarations.map keyOf ∧
      reading.addOnce declaration =
        ({ reading with declarations := reading.declarations ++ [declaration] },
          reading.declarations.length) := by
  rw [addOnce]
  split
  next position there => exact .inl ⟨position, (List.findIdx?_eq_some_iff_getElem.mp there).1, rfl⟩
  next absent =>
    refine .inr ⟨fun member => ?_, rfl⟩
    obtain ⟨other, isOther, same⟩ := List.mem_map.mp member
    have different := List.findIdx?_eq_none_iff.mp absent other isOther
    simp only [keyOf, Prod.mk.injEq] at same
    simp [same] at different

/-- The body that is open after a line with a declaration, if that one is at a position. -/
def bodyAt (reading : Reading) (next : List Char) (found : Found) (position : ℕ) : Option ℕ :=
  if found.isRecord && reading.opens next then some position else none

theorem lt_of_mem_bodyAt {found : Found} {position other count : ℕ} (less : position < count)
    (member : other ∈ reading.bodyAt next found position) : other < count := by
  rw [bodyAt] at member
  split at member
  · rwa [← Option.some_inj.mp member]
  · cases member

/-- What is declared on a line changes the declarations only by a new one at their end, and a body
that it opens belongs to one of them. -/
theorem put_cases (reading : Reading) (closed : reading.opened = none) (next : List Char)
    (found : Found) :
    ∃ declarations opened,
      reading.put next found = { reading with declarations, opened } ∧
      (∀ position ∈ opened, position < declarations.length) ∧
      (declarations = reading.declarations ∨
        ∃ declaration, declarations = reading.declarations ++ [declaration] ∧
          keyOf declaration ∉ reading.declarations.map keyOf ∧
          declaration.place = (found.kind, reading.count + 1)) := by
  have put {after : Reading} {position : ℕ}
      (added : reading.addOnce (reading.declaration found.name found.kind found.signature
        found.detail) = (after, position)) (unopened : after.opened = none) :
      reading.put next found = { after with opened := reading.bodyAt next found position } := by
    rw [Reading.put, added, bodyAt]
    cases found.isRecord with
    | true => rfl
    | false => simp [← unopened]
  rcases reading.addOnce_cases (reading.declaration found.name found.kind found.signature
    found.detail) with ⟨position, inRange, added⟩ | ⟨new, added⟩
  · exact ⟨_, _, put added closed, fun _ => lt_of_mem_bodyAt inRange, .inl rfl⟩
  · have whole := put added closed
    refine ⟨_, _, whole, fun _ => lt_of_mem_bodyAt ?_, .inr ⟨_, rfl, new, rfl⟩⟩
    rw [List.length_append]
    exact Nat.lt_succ_self _

theorem keys_takeMember :
    (reading.takeMember raw).declarations.map keyOf = reading.declarations.map keyOf := by
  cases opened : reading.opened with
  | none => rw [takeMember_of_none opened]
  | some position =>
      have unchanged (declaration : Declaration) :
          keyOf (extendWith raw declaration) = id (keyOf declaration) := rfl
      rw [takeMember_of_some opened, map_modify unchanged, List.modify_id]

theorem opened_takeMember : (reading.takeMember raw).opened = reading.opened := by
  rw [takeMember]
  split <;> rfl

/-- A line that changes no kinds, names and lines. -/
theorem IsPlaced.passing {after : Reading} (placed : reading.IsPlaced language)
    (imports : after.imports = reading.imports) (places : placesOf after = placesOf reading)
    (keys : after.declarations.map keyOf = reading.declarations.map keyOf)
    (opened : after.opened = reading.opened) : (reading.passing raw after).IsPlaced language where
  placed := by
    have read := placed.placed.passing
    rw [← imports, ← places] at read
    exact read
  distinct := by
    have distinct := placed.distinct
    rw [← keys] at distinct
    exact distinct
  opened position member := by
    have count := congrArg List.length keys
    rw [List.length_map, List.length_map] at count
    exact count ▸ placed.opened position (opened ▸ member)

/-- A line outside of all braces. -/
theorem IsPlaced.putting (isFamily : language = .c ∨ language = .cpp)
    (placed : reading.IsPlaced language) :
    (reading.passing raw ((reading.advancing raw).closing.putAll next
      (outside? language raw))).IsPlaced language := by
  cases declared : outside? language raw with
  | none =>
      exact ⟨placed.placed.passing, placed.distinct,
        fun position member => (Option.not_mem_none position member).elim⟩
  | some found =>
      have admitted := admits_of_outside? isFamily declared
      obtain ⟨declarations, opened, put, inRange, old | ⟨declaration, new, absent, place⟩⟩ :=
        (reading.advancing raw).closing.put_cases rfl next found
      · rw [putAll, put, old]
        exact ⟨placed.placed.passing, placed.distinct, old ▸ inRange⟩
      · have places : declarations.map (·.place) =
            placesOf reading ++ [(found.kind, reading.count + 1)] := by
          rw [new, List.map_append, List.map_singleton, place]
          rfl
        have read := placed.placed.declaring admitted
        have distinct := placed.distinct.concat absent
        rw [← places] at read
        rw [List.concat_eq_append, ← List.map_singleton, ← List.map_append, ← new] at distinct
        rw [putAll, put]
        exact ⟨read, distinct, inRange⟩

theorem isPlaced_take (isFamily : language = .c ∨ language = .cpp)
    (placed : reading.IsPlaced language) : (reading.take language raw next).IsPlaced language := by
  cases scope : scopeLine.match? raw with
  | some captures =>
      rw [take_of_scope (by rw [scope]; rfl)]
      exact placed.passing rfl rfl rfl rfl
  | none =>
      cases included : includeLine.match? raw with
      | some captures =>
          rw [take_of_include scope included]
          have read := placed.placed.importing
          rw [← List.reverse_cons] at read
          exact ⟨read, placed.distinct, placed.opened⟩
      | none =>
          rcases Nat.lt_trichotomy reading.braces.depth 1 with outside | inside | deep
          · rw [take_of_outside scope included (Nat.lt_one_iff.mp outside)]
            exact placed.putting isFamily
          · rw [take_of_inside scope included inside]
            exact placed.passing imports_takeMember placesOf_takeMember keys_takeMember
              opened_takeMember
          · rw [take_of_deep scope included deep]
            exact placed.passing rfl rfl rfl rfl

end Reading

variable {language : Language} {reading : Reading}

theorem isPlaced_start : Reading.start.IsPlaced language :=
  ⟨.nil, .nil, fun position member => (Option.not_mem_none position member).elim⟩

theorem isPlaced_readBefore (isFamily : language = .c ∨ language = .cpp)
    (placed : reading.IsPlaced language) (next : List Char) (lines : List (List Char)) :
    (readBefore language next reading lines).IsPlaced language := by
  induction lines generalizing reading with
  | nil => exact placed
  | cons line lines induction => exact induction (Reading.isPlaced_take isFamily placed)

/-- Reading all lines is reading them before nothing. -/
theorem readLines_eq (lines : List (List Char)) :
    readLines language reading lines = readBefore language [] reading lines := by
  induction lines generalizing reading with
  | nil => rfl
  | cons line lines induction => exact induction

theorem count_readBefore (next : List Char) (lines : List (List Char)) :
    (readBefore language next reading lines).count = reading.count + lines.length := by
  induction lines generalizing reading with
  | nil => rfl
  | cons line lines induction =>
      rw [readBefore, induction, Reading.count_take, List.length_cons]
      omega

theorem wellFormed_outline (isFamily : language = .c ∨ language = .cpp) (text : String) :
    (outline language text).WellFormed language := by
  have placed := isPlaced_readBefore isFamily isPlaced_start [] (lines text.toList)
  have counted := @count_readBefore language .start [] (lines text.toList)
  have kept := outline_declarations isFamily text
  rw [← readLines_eq] at placed counted
  have read := placed.placed
  have distinct := placed.distinct
  rw [counted, ← List.map_reverse, Reading.start, Nat.zero_add] at read
  refine Placed.wellFormed ?_ fun _ => ?_
  · change Placed _ _ _ ((outline language text).declarations.map (·.place))
    rw [kept]
    exact read
  · change ((outline language text).declarations.map keyOf).Nodup
    rw [kept]
    exact distinct

/-- The parts of matches that are used without asking whether they are there. -/
def partsTaken : List (Pattern × ℕ) :=
  [(includeLine, 1), (defineLine, 1), (recordLine, 1), (recordLine, 2), (usingLine, 1),
    (typedefLine, 1), (functionLine, 1), (memberLine, 1), (enumerator, 1)]

theorem remembers_partsTaken : ∀ taken ∈ partsTaken, taken.1.remembers taken.2 = true := by
  decide +kernel

end CodeAtlas.Source.CFamily
