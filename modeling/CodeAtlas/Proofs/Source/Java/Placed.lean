import CodeAtlas.Proofs.Source.Java.Comment
import CodeAtlas.Proofs.Source.Java.Reading
import CodeAtlas.Proofs.Source.Numbered
import CodeAtlas.Proofs.Text.Pattern

/-!
# Places in Java files

A line of Java gives at most one import or type, of a kind that Java has, and numbers it.
-/

namespace CodeAtlas.Source.Java

open CodeAtlas.Text CodeAtlas.Text.Pattern

namespace Reading

variable {reading : Reading} {raw : List Char}

/-- What has been read has its numbers, and kinds that Java has. -/
def IsPlaced (reading : Reading) : Prop :=
  Placed .java reading.count (reading.imports.map (·.line)).reverse
    (reading.declarations.map (·.place)).reverse

theorem places_addType (reading : Reading) (raw : List Char) (captures : Captures) :
    ∃ kind, Language.java.admits kind = true ∧
      (reading.addType raw captures).declarations.map (·.place) =
        (kind, reading.count + 1) :: reading.declarations.map (·.place) := by
  unfold addType
  dsimp only
  split
  · exact ⟨.interface, rfl, rfl⟩
  · split
    · exact ⟨.enum, rfl, rfl⟩
    · exact ⟨.class, rfl, rfl⟩

theorem isPlaced_take (placed : reading.IsPlaced) : (reading.take raw).IsPlaced := by
  rw [take_eq]
  match found? reading.braces.depth raw with
  | none => exact placed.passing
  | some (.imported captures) =>
      have read := placed.importing
      rw [← List.reverse_cons] at read
      exact read
  | some (.declared captures) =>
      obtain ⟨kind, admitted, places⟩ := reading.places_addType raw captures
      have read := placed.declaring admitted
      rw [← List.reverse_cons, ← places] at read
      exact read
  | some (.member name) =>
      have read := placed.passing
      rw [← places_withMember (String.ofList name)] at read
      exact read

theorem isPlaced_foldl (placed : reading.IsPlaced) (lines : List (List Char)) :
    (lines.foldl take reading).IsPlaced := by
  induction lines generalizing reading with
  | nil => exact placed
  | cons line lines induction => exact induction (isPlaced_take placed)

end Reading

theorem isPlaced_start : Reading.start.IsPlaced := .nil

theorem wellFormed_outline (text : String) : (outline text).WellFormed .java := by
  have placed := Reading.isPlaced_foldl isPlaced_start (lines text.toList)
  rw [Reading.IsPlaced, Reading.count_foldl, ← List.map_reverse, ← List.map_reverse] at placed
  refine Placed.wellFormed ?_ (by simp)
  rwa [← Nat.zero_add (Outline.countLines text.toList)]

/-- The parts of matches that are used without asking whether they are there. -/
def partsTaken : List (Pattern × ℕ) :=
  [(importLine, 2), (typeLine, 1), (typeLine, 2), (methodLine, 1)]

theorem remembers_partsTaken : ∀ taken ∈ partsTaken, taken.1.remembers taken.2 = true := by
  decide +kernel

end CodeAtlas.Source.Java
