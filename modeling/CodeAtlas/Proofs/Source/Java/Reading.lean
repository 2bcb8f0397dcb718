import CodeAtlas.Source.Java
import Mathlib.Data.List.Basic

/-!
# What a line of Java adds

What is found on a line has its number, and nothing that is found on another line has it.  A line
outside of all braces adds the import that it matches.
-/

namespace CodeAtlas.Source.Java

open CodeAtlas.Text CodeAtlas.Text.Pattern

/-- The import of a line. -/
def importAt (number : Nat) (captures : Captures) : Import :=
  let path := part captures 2
  let last := ((splitLast? '.' path).map (·.2)).getD path
  let names := if (part? captures 3).isSome then ["*"] else [String.ofList last]
  { Import.new (String.ofList path) .importStatement number with names }

namespace Reading

variable {reading : Reading} {raw : List Char}

/-- The imports that a line adds. -/
def importsOf (reading : Reading) (raw : List Char) : List Import :=
  if reading.braces.depth = 0 then
    (importLine.match? raw).toList.map (importAt (reading.count + 1))
  else []

theorem imports_addMethod (captures : Captures) :
    (reading.addMethod raw captures).imports = reading.imports := by
  rw [addMethod]
  split
  next => split <;> rfl
  next => rfl

theorem imports_take : (reading.take raw).imports = reading.importsOf raw ++ reading.imports := by
  rw [take, importsOf]
  split
  next =>
    cases importLine.match? raw with
    | some captures => rfl
    | none => cases typeLine.match? raw <;> rfl
  next =>
    split
    next =>
      cases methodLine.match? raw with
      | some captures => exact imports_addMethod captures
      | none => rfl
    next => rfl

@[simp]
theorem count_take : (reading.take raw).count = reading.count + 1 := rfl

theorem count_foldl (lines : List (List Char)) :
    (lines.foldl take reading).count = reading.count + lines.length := by
  induction lines generalizing reading with
  | nil => rfl
  | cons line lines induction =>
      rw [List.foldl_cons, induction, count_take, List.length_cons]
      omega

theorem count_foldl_start (lines : List (List Char)) :
    (lines.foldl take .start).count = lines.length := by
  rw [count_foldl]
  exact Nat.zero_add _

/-- What is found, the last one first, grows by what each line adds with its number. -/
structure Grows {α : Type} (found : Reading → List α) (number : α → ℕ)
    (added : Reading → List Char → List α) : Prop where
  start : found .start = []
  take : ∀ reading raw, found (reading.take raw) = added reading raw ++ found reading
  numbered : ∀ reading raw, ∀ item ∈ added reading raw, number item = reading.count + 1

namespace Grows

variable {α : Type} {found : Reading → List α} {number : α → ℕ}
  {added : Reading → List Char → List α}

/-- The lines of a text add what has their numbers. -/
theorem exists_foldl (grows : Grows found number added) (reading : Reading)
    (lines : List (List Char)) :
    ∃ more, found (lines.foldl Reading.take reading) = more ++ found reading ∧
      ∀ item ∈ more,
        reading.count < number item ∧ number item ≤ reading.count + lines.length := by
  induction lines generalizing reading with
  | nil => exact ⟨[], rfl, by simp⟩
  | cons line lines induction =>
      obtain ⟨more, grown, within⟩ := induction (reading.take line)
      refine ⟨more ++ added reading line, ?_, ?_⟩
      · rw [List.foldl_cons, grown, grows.take, List.append_assoc]
      · intro item member
        rw [List.length_cons]
        rcases List.mem_append.mp member with later | here
        · obtain ⟨after, upTo⟩ := within item later
          rw [count_take] at after upTo
          omega
        · rw [grows.numbered reading line item here]
          omega

/-- What has the number of a line is what the line adds. -/
theorem filter_foldl (grows : Grows found number added) (before after : List (List Char))
    (line : List Char) :
    (found ((before ++ line :: after).foldl Reading.take .start)).filter
        (number · = before.length + 1) =
      added (before.foldl Reading.take .start) line := by
  have counted := count_foldl_start before
  obtain ⟨early, first, earlyNumbers⟩ := grows.exists_foldl .start before
  obtain ⟨late, whole, lateNumbers⟩ :=
    grows.exists_foldl ((before.foldl Reading.take .start).take line) after
  have noneEarly : early.filter (number · = before.length + 1) = [] := by
    refine List.filter_eq_nil_iff.mpr fun item member => ?_
    have upTo := (earlyNumbers item member).2
    rw [show Reading.start.count = 0 from rfl] at upTo
    rw [decide_eq_true_eq]
    omega
  have noneLate : late.filter (number · = before.length + 1) = [] := by
    refine List.filter_eq_nil_iff.mpr fun item member => ?_
    have above := (lateNumbers item member).1
    rw [count_take, counted] at above
    rw [decide_eq_true_eq]
    omega
  have allHere : (added (before.foldl Reading.take .start) line).filter
      (number · = before.length + 1) = added (before.foldl Reading.take .start) line := by
    refine List.filter_eq_self.mpr fun item member => ?_
    rw [grows.numbered _ _ item member, counted, decide_eq_true_eq]
  rw [List.foldl_append, List.foldl_cons, whole, grows.take, first, grows.start, List.append_nil,
    List.filter_append, List.filter_append, noneLate, noneEarly, allHere, List.nil_append,
    List.append_nil]

end Grows

theorem line_of_mem_importsOf {found : Import} (member : found ∈ reading.importsOf raw) :
    found.line = reading.count + 1 := by
  rw [importsOf] at member
  split at member
  next =>
    obtain ⟨captures, _, rfl⟩ := List.mem_map.mp member
    rfl
  next => cases member

theorem grows_imports : Grows Reading.imports Import.line importsOf where
  start := rfl
  take _ _ := imports_take
  numbered _ _ _ member := line_of_mem_importsOf member

end Reading

/-- The imports of the line with a number. -/
def importsOn (outline : Outline) (number : Nat) : List Import :=
  outline.imports.filter (·.line = number)

/-- A line outside of all braces gives the import that it matches. -/
theorem importsOn_outline {text : String} {before after : List (List Char)} {line : List Char}
    (split : lines text.toList = before ++ line :: after)
    (outside : (before.foldl Reading.take .start).braces.depth = 0) :
    importsOn (outline text) (before.length + 1) =
      (importLine.match? line).toList.map (importAt (before.length + 1)) := by
  have imports : (outline text).imports =
      ((lines text.toList).foldl Reading.take .start).imports.reverse := rfl
  rw [importsOn, imports, List.filter_reverse, split, Reading.grows_imports.filter_foldl,
    Reading.importsOf, if_pos outside, Reading.count_foldl_start]
  cases importLine.match? line <;> rfl

end CodeAtlas.Source.Java
