import CodeAtlas.Source.CFamily
import Mathlib.Data.List.Basic

/-!
# What a line of C or C++ adds

A line opens a scope, includes a file, declares something outside of all braces, or declares members
of the record whose body is open.  Declarations keep their places, kinds and lines.
-/

namespace CodeAtlas.Source.CFamily

open CodeAtlas.Text CodeAtlas.Text.Pattern

namespace Reading

variable {language : Language} {reading : Reading} {raw next : List Char}

/-! ## One line -/

/-- What is left of a line: its number, and its text for the comments above what follows. -/
def passing (reading : Reading) (raw : List Char) (read : Reading) : Reading :=
  { read with count := reading.count + 1, before := raw :: reading.before }

/-- A reading after the braces of a line. -/
def advancing (reading : Reading) (raw : List Char) : Reading :=
  { reading with braces := reading.braces.advance raw }

def withImport (reading : Reading) (captures : Captures) : Reading :=
  let found := Import.new (String.ofList (part captures 1)) .includeDirective (reading.count + 1)
  { reading with imports := found :: reading.imports }

theorem take_of_scope (scope : (scopeLine.match? raw).isSome = true) :
    reading.take language raw next = reading.passing raw reading := by
  rw [take, if_pos scope]
  rfl

theorem take_of_include {captures : Captures} (noScope : scopeLine.match? raw = none)
    (included : includeLine.match? raw = some captures) :
    reading.take language raw next =
      reading.passing raw ((reading.advancing raw).withImport captures) := by
  simp only [take, noScope, included, Option.isSome_none, Bool.false_eq_true, if_false]
  rfl

theorem take_of_inside (noScope : scopeLine.match? raw = none)
    (noInclude : includeLine.match? raw = none) (inside : reading.braces.depth = 1) :
    reading.take language raw next =
      reading.passing raw ((reading.advancing raw).takeMember raw) := by
  simp only [take, noScope, noInclude, inside, Option.isSome_none, Bool.false_eq_true, if_false,
    Nat.one_ne_zero, if_true]
  rfl

theorem take_of_deep (noScope : scopeLine.match? raw = none)
    (noInclude : includeLine.match? raw = none) (deep : 1 < reading.braces.depth) :
    reading.take language raw next = reading.passing raw (reading.advancing raw) := by
  have notOutside : ¬reading.braces.depth = 0 := by omega
  have notInside : ¬reading.braces.depth = 1 := by omega
  simp only [take, noScope, noInclude, notOutside, notInside, Option.isSome_none,
    Bool.false_eq_true, if_false]
  rfl

/-- The declaration with the members that a line of its body declares. -/
def extendWith (raw : List Char) (declaration : Declaration) : Declaration :=
  { declaration with
    members := declaration.members ++ (membersOf declaration.kind raw).map String.ofList }

theorem takeMember_of_some {position : Nat} (opened : reading.opened = some position) :
    reading.takeMember raw =
      { reading with declarations := reading.declarations.modify position (extendWith raw) } := by
  rw [takeMember, opened]
  rfl

theorem takeMember_of_none (opened : reading.opened = none) : reading.takeMember raw = reading := by
  rw [takeMember, opened]

/-! ## What a line outside of all braces declares -/

/-- What a line declares, and whether a body may follow. -/
structure Found where
  name : List Char
  kind : InterfaceKind
  signature : String
  detail : DeclarationDetail
  isRecord : Bool

/-- The kind of a record or an enumeration, and its details. -/
def recordKind (word : List Char) : InterfaceKind × DeclarationDetail :=
  if word = "class".toList then (.class, .classBases [])
  else if "enum".toList.isPrefixOf word then (.enum, .plain)
  else (.struct, .plain)

def foundRecord? (language : Language) (raw : List Char) (captures : Captures) : Option Found :=
  let word := part captures 1
  if word = "class".toList && language != .cpp then none
  else some ⟨part captures 2, (recordKind word).1, lineHeader raw, (recordKind word).2, true⟩

def foundFunction? (raw : List Char) (captures : Captures) : Option Found :=
  let qualified := part captures 1
  let name := ((splitAt? "::".toList qualified.reverse).map (·.1.reverse)).getD qualified
  if statementWords.contains (String.ofList name) then none
  else some ⟨name, .function, lineHeader raw, .functionAsync false, false⟩

def found? (language : Language) (raw : List Char) : Option Found :=
  match defineLine.match? raw, recordLine.match? raw,
    (usingLine.match? raw).or (typedefLine.match? raw), functionLine.match? raw with
  | some captures, _, _, _ =>
      some ⟨part captures 1, .macroRule, String.ofList (trim raw), .plain, false⟩
  | none, some captures, _, _ => foundRecord? language raw captures
  | none, none, some captures, _ =>
      some ⟨part captures 1, .typeAlias, lineHeader raw, .plain, false⟩
  | none, none, none, some captures => foundFunction? raw captures
  | none, none, none, none => none

/-- Whether the body of a record on a line is open when the next line is read. -/
def opens (reading : Reading) (next : List Char) : Bool :=
  reading.braces.depth = 1 || ['{'].isPrefixOf (trimStart next)

/-- Add what a line declares. -/
def put (reading : Reading) (next : List Char) (found : Found) : Reading :=
  let added := reading.addOnce
    (reading.declaration found.name found.kind found.signature found.detail)
  if found.isRecord then
    { added.1 with opened := if reading.opens next then some added.2 else none }
  else added.1

/-- Add what a line declares, if it declares something. -/
def putAll (reading : Reading) (next : List Char) : Option Found → Reading
  | some found => reading.put next found
  | none => reading

theorem takeRecord_eq (captures : Captures) : reading.takeRecord language next raw captures =
    reading.putAll next (foundRecord? language raw captures) := by
  simp only [takeRecord, foundRecord?, recordKind]
  by_cases isClass : part captures 1 = "class".toList
  · simp only [isClass, decide_true, Bool.true_and, if_true]
    split <;> rfl
  · simp only [isClass, decide_false, Bool.false_and, Bool.false_eq_true, if_false]
    split <;> rfl

theorem takeFunction_eq (captures : Captures) :
    reading.takeFunction raw captures = reading.putAll next (foundFunction? raw captures) := by
  simp only [takeFunction, foundFunction?]
  split <;> rfl

theorem takeOutside_eq :
    reading.takeOutside language next raw = reading.putAll next (found? language raw) := by
  simp only [takeOutside, found?]
  cases defineLine.match? raw with
  | some captures => rfl
  | none =>
      cases recordLine.match? raw with
      | some captures => exact takeRecord_eq captures
      | none =>
          cases (usingLine.match? raw).or (typedefLine.match? raw) with
          | some captures => rfl
          | none =>
              cases functionLine.match? raw with
              | some captures => exact takeFunction_eq captures
              | none => rfl

/-- What a line outside of all braces declares. -/
def outside? (language : Language) (raw : List Char) : Option Found :=
  if isTrivia raw then none else found? language raw

/-- A reading with no body open. -/
def closing (reading : Reading) : Reading := { reading with opened := none }

theorem take_of_outside (noScope : scopeLine.match? raw = none)
    (noInclude : includeLine.match? raw = none) (outside : reading.braces.depth = 0) :
    reading.take language raw next = reading.passing raw
      ((reading.advancing raw).closing.putAll next (outside? language raw)) := by
  simp only [take, noScope, noInclude, outside, Option.isSome_none, Bool.false_eq_true, if_false,
    if_true, takeOutside_eq, outside?]
  split <;> rfl

end Reading

/-! ## Places of declarations -/

theorem map_modify {α β : Type} {entries : List α} {position : Nat} {f : α → α} {g : α → β}
    {h : β → β} (same : ∀ entry, g (f entry) = h (g entry)) :
    (entries.modify position f).map g = (entries.map g).modify position h := by
  apply List.ext_getElem?
  intro index
  by_cases here : position = index
  · subst here
    cases found : entries[position]? with
    | none => simp [found]
    | some entry => simp [found, same]
  · rw [List.getElem?_modify_ne _ _ here, List.getElem?_map, List.getElem?_map,
      List.getElem?_modify_ne _ _ here]

/-- The kinds and lines of the declarations. -/
def placesOf (reading : Reading) : List (InterfaceKind × Nat) :=
  reading.declarations.map fun declaration => (declaration.kind, declaration.line)

namespace Reading

variable {language : Language} {reading : Reading} {raw next : List Char}

theorem placesOf_addOnce (declaration : Declaration) :
    ∃ more, placesOf (reading.addOnce declaration).1 = placesOf reading ++ more ∧
      ∀ place ∈ more, place = (declaration.kind, declaration.line) := by
  rw [addOnce]
  split
  · exact ⟨[], (List.append_nil _).symm, List.forall_mem_nil _⟩
  · refine ⟨[(declaration.kind, declaration.line)], ?_, fun _ => List.mem_singleton.mp⟩
    rw [placesOf, placesOf, List.map_append]
    rfl

theorem placesOf_putAll (found : Option Found) :
    ∃ more, placesOf (reading.putAll next found) = placesOf reading ++ more ∧
      ∀ place ∈ more, place.2 = reading.count + 1 ∧ ∃ f ∈ found, place.1 = f.kind := by
  cases found with
  | none => exact ⟨[], (List.append_nil _).symm, List.forall_mem_nil _⟩
  | some found =>
      obtain ⟨more, added, there⟩ := reading.placesOf_addOnce
        (reading.declaration found.name found.kind found.signature found.detail)
      refine ⟨more, ?_, fun place member => ?_⟩
      · rw [← added, putAll, put]
        split <;> rfl
      · rw [there place member]
        exact ⟨rfl, found, rfl, rfl⟩

theorem placesOf_takeMember : placesOf (reading.takeMember raw) = placesOf reading := by
  cases opened : reading.opened with
  | none => rw [takeMember_of_none opened]
  | some position =>
      have unchanged : ∀ declaration : Declaration, ((extendWith raw declaration).kind,
          (extendWith raw declaration).line) = id (declaration.kind, declaration.line) :=
        fun _ => rfl
      rw [takeMember_of_some opened, placesOf, map_modify unchanged, List.modify_id, placesOf]

/-- A line adds only declarations with its number and of the kind that it declares. -/
theorem placesOf_take (language : Language) (reading : Reading) (raw next : List Char) :
    ∃ more, placesOf (reading.take language raw next) = placesOf reading ++ more ∧
      ∀ place ∈ more, place.2 = reading.count + 1 ∧
        ∃ found ∈ outside? language raw, place.1 = found.kind := by
  have same {after : Reading} (kept : placesOf after = placesOf reading) :
      ∃ more, placesOf (reading.passing raw after) = placesOf reading ++ more ∧
        ∀ place ∈ more, place.2 = reading.count + 1 ∧
          ∃ found ∈ outside? language raw, place.1 = found.kind :=
    ⟨[], kept.trans (List.append_nil _).symm, List.forall_mem_nil _⟩
  cases scope : scopeLine.match? raw with
  | some captures =>
      rw [take_of_scope (by rw [scope]; rfl)]
      exact same rfl
  | none =>
      cases included : includeLine.match? raw with
      | some captures =>
          rw [take_of_include scope included]
          exact same rfl
      | none =>
          rcases Nat.lt_trichotomy reading.braces.depth 1 with outside | inside | deep
          · rw [take_of_outside scope included (Nat.lt_one_iff.mp outside)]
            exact (reading.advancing raw).closing.placesOf_putAll _
          · rw [take_of_inside scope included inside]
            exact same placesOf_takeMember
          · rw [take_of_deep scope included deep]
            exact same rfl

theorem imports_putAll (found : Option Found) :
    (reading.putAll next found).imports = reading.imports := by
  cases found with
  | none => rfl
  | some found =>
      rw [putAll, put, addOnce]
      split <;> split <;> rfl

theorem imports_takeMember : (reading.takeMember raw).imports = reading.imports := by
  rw [takeMember]
  split <;> rfl

/-- A line adds only imports with its number. -/
theorem imports_take (language : Language) (reading : Reading) (raw next : List Char) :
    ∃ more, (reading.take language raw next).imports = more ++ reading.imports ∧
      ∀ found ∈ more, found.line = reading.count + 1 := by
  cases scope : scopeLine.match? raw with
  | some captures =>
      rw [take_of_scope (by rw [scope]; rfl)]
      exact ⟨[], rfl, List.forall_mem_nil _⟩
  | none =>
      cases included : includeLine.match? raw with
      | some captures =>
          rw [take_of_include scope included]
          refine ⟨[_], rfl, fun found member => ?_⟩
          rw [List.mem_singleton.mp member]
          rfl
      | none =>
          rcases Nat.lt_trichotomy reading.braces.depth 1 with outside | inside | deep
          · rw [take_of_outside scope included (Nat.lt_one_iff.mp outside)]
            exact ⟨[], imports_putAll _, List.forall_mem_nil _⟩
          · rw [take_of_inside scope included inside]
            exact ⟨[], imports_takeMember, List.forall_mem_nil _⟩
          · rw [take_of_deep scope included deep]
            exact ⟨[], rfl, List.forall_mem_nil _⟩

@[simp]
theorem count_take : (reading.take language raw next).count = reading.count + 1 := rfl

/-- Every line declares something of a kind that the language has. -/
theorem admits_of_outside? {found : Found} (isFamily : language = .c ∨ language = .cpp)
    (declared : outside? language raw = some found) : language.admits found.kind = true := by
  have ofWord (word : List Char) (noClass : ¬(word = "class".toList && language != .cpp) = true) :
      language.admits (recordKind word).1 = true := by
    rw [recordKind]
    rcases isFamily with rfl | rfl
    · split
      next isClass => exact absurd (by simp [isClass]) noClass
      next => split <;> rfl
    · split
      next => rfl
      next => split <;> rfl
  have others : language.admits .macroRule = true ∧ language.admits .typeAlias = true ∧
      language.admits .function = true := by
    rcases isFamily with rfl | rfl <;> exact ⟨rfl, rfl, rfl⟩
  rw [outside?] at declared
  split at declared
  · cases declared
  · rw [found?] at declared
    split at declared
    · cases declared
      exact others.1
    · rw [foundRecord?] at declared
      split at declared
      · cases declared
      next noClass =>
        cases declared
        exact ofWord _ noClass
    · cases declared
      exact others.2.1
    · simp only [foundFunction?] at declared
      split at declared
      · cases declared
      · cases declared
        exact others.2.2
    · cases declared

end Reading

theorem admits_readLines {language : Language} (isFamily : language = .c ∨ language = .cpp)
    (reading : Reading) (lines : List (List Char))
    (admitted : ∀ place ∈ placesOf reading, language.admits place.1 = true) :
    ∀ place ∈ placesOf (readLines language reading lines), language.admits place.1 = true := by
  induction lines generalizing reading with
  | nil => exact admitted
  | cons line lines induction =>
      apply induction
      obtain ⟨more, added, there⟩ := Reading.placesOf_take language reading line (lines.headD [])
      rw [added]
      intro place member
      rcases List.mem_append.mp member with old | new
      · exact admitted place old
      · obtain ⟨_, found, declared, kind⟩ := there place new
        rw [kind]
        exact Reading.admits_of_outside? isFamily declared

/-- All declarations that are read are kept. -/
theorem outline_declarations {language : Language} (isFamily : language = .c ∨ language = .cpp)
    (text : String) :
    (outline language text).declarations =
      (readLines language .start (lines text.toList)).declarations := by
  have admitted := admits_readLines isFamily .start (lines text.toList)
    (List.forall_mem_nil _)
  refine List.filter_eq_self.mpr fun declaration member => ?_
  exact admitted (declaration.kind, declaration.line)
    (List.mem_map_of_mem (f := fun d : Declaration => (d.kind, d.line)) member)

/-! ## Texts with a line in their middle -/

/-- Read lines that another one follows. -/
def readBefore (language : Language) (next : List Char) (reading : Reading) :
    List (List Char) → Reading
  | [] => reading
  | line :: rest => readBefore language next (reading.take language line (rest.headD next)) rest

theorem readLines_append {language : Language} {line : List Char} (reading : Reading)
    (before after : List (List Char)) :
    readLines language reading (before ++ line :: after) =
      readLines language (readBefore language line reading before) (line :: after) := by
  induction before generalizing reading with
  | nil => rfl
  | cons first before induction =>
      have next : (before ++ line :: after).headD [] = before.headD line := by
        cases before <;> rfl
      rw [List.cons_append, readLines, next, induction, readBefore]

/-- Of the line that follows only its brace at the beginning counts. -/
theorem Reading.take_congr {language : Language} {raw next other : List Char} {reading : Reading}
    (same : ['{'].isPrefixOf (trimStart next) = ['{'].isPrefixOf (trimStart other)) :
    reading.take language raw next = reading.take language raw other := by
  simp only [take, takeOutside, takeRecord, same]

theorem readBefore_congr {language : Language} {next other : List Char}
    (same : ['{'].isPrefixOf (trimStart next) = ['{'].isPrefixOf (trimStart other))
    (reading : Reading) (lines : List (List Char)) :
    readBefore language next reading lines = readBefore language other reading lines := by
  induction lines generalizing reading with
  | nil => rfl
  | cons line lines induction =>
      have head : ['{'].isPrefixOf (trimStart (lines.headD next)) =
          ['{'].isPrefixOf (trimStart (lines.headD other)) := by
        cases lines with
        | nil => exact same
        | cons => rfl
      rw [readBefore, readBefore, Reading.take_congr head, induction]

/-- The braces after a line; one that opens a scope does not count. -/
def bracesAfterLine (braces : Braces) (raw : List Char) : Braces :=
  if (scopeLine.match? raw).isSome then braces else braces.advance raw

namespace Reading

variable {language : Language} {reading : Reading} {raw next : List Char}

theorem braces_addOnce {declaration : Declaration} :
    (reading.addOnce declaration).1.braces = reading.braces := by
  rw [addOnce]
  split <;> rfl

theorem braces_putAll (found : Option Found) :
    (reading.putAll next found).braces = reading.braces := by
  cases found with
  | none => rfl
  | some found =>
      rw [putAll, put]
      split
      · exact braces_addOnce
      · exact braces_addOnce

theorem braces_takeMember : (reading.takeMember raw).braces = reading.braces := by
  rw [takeMember]
  split <;> rfl

theorem braces_take :
    (reading.take language raw next).braces = bracesAfterLine reading.braces raw := by
  rw [bracesAfterLine]
  cases scope : scopeLine.match? raw with
  | some captures =>
      rw [take_of_scope (by rw [scope]; rfl)]
      rfl
  | none =>
      rw [Option.isSome_none, if_neg Bool.false_ne_true]
      cases included : includeLine.match? raw with
      | some captures =>
          rw [take_of_include scope included]
          rfl
      | none =>
          rcases Nat.lt_trichotomy reading.braces.depth 1 with outside | inside | deep
          · rw [take_of_outside scope included (Nat.lt_one_iff.mp outside)]
            exact braces_putAll _
          · rw [take_of_inside scope included inside]
            exact braces_takeMember
          · rw [take_of_deep scope included deep]
            rfl

end Reading

theorem braces_readBefore {language : Language} {next : List Char} (reading : Reading)
    (lines : List (List Char)) :
    (readBefore language next reading lines).braces =
      lines.foldl bracesAfterLine reading.braces := by
  induction lines generalizing reading with
  | nil => rfl
  | cons line lines induction => rw [readBefore, induction, Reading.braces_take, List.foldl_cons]

end CodeAtlas.Source.CFamily
