import CodeAtlas.Knowledge
import CodeAtlas.Proofs.Number.Exact

/-!
# Confidences

A confidence lies between zero and one.  Whatever a learning comes with, what is stored of it is a
confidence, and a confidence is stored as it is.
-/

namespace CodeAtlas

namespace Ieee

variable {format : Format} {first second : Ieee format}

/-- Of two numbers one is smaller or equal if it is not the greater one. -/
theorem le_of_not_lt {left right : Int} (isLeft : first.position = some left)
    (isRight : second.position = some right) (notLess : second.lt first = false) :
    first.le second = true := by
  rw [lt, isLeft, isRight] at notLess
  rw [le, isLeft, isRight]
  simpa using notLess

end Ieee

namespace Learning

/-- A number between zero and one. -/
def IsConfidence (value : Binary32) : Prop :=
  Ieee.le .zero value = true ∧ Ieee.le value (.ofNat .single 1) = true

instance (value : Binary32) : Decidable (IsConfidence value) :=
  inferInstanceAs (Decidable (_ ∧ _))

variable {value : Binary32}

theorem isConfidence_zero : IsConfidence .zero := by decide +kernel

theorem isConfidence_one : IsConfidence (.ofNat .single 1) := by decide +kernel

theorem IsConfidence.isFinite (confidence : IsConfidence value) : value.isFinite = true := by
  cases value with
  | finite negative units => rfl
  | infinite negative =>
      revert confidence
      revert negative
      decide +kernel
  | notANumber negative =>
      revert confidence
      revert negative
      decide +kernel

theorem exists_position (number : ∀ negative, value ≠ .notANumber negative) :
    ∃ place, value.position = some place := by
  cases value with
  | finite negative units => exact ⟨_, rfl⟩
  | infinite negative => exact ⟨_, rfl⟩
  | notANumber negative => exact absurd rfl (number negative)

/-- What is stored of a number is zero, one, or the number, which then lies between them. -/
theorem normalConfidence_cases (value : Binary32) :
    normalConfidence value = .zero ∨ normalConfidence value = .ofNat .single 1 ∨
      normalConfidence value = value ∧ IsConfidence value := by
  unfold normalConfidence
  split
  next => exact .inl rfl
  next number =>
    obtain ⟨place, isPlace⟩ := exists_position number
    have zero : Ieee.position .single .zero = some 0 := rfl
    have one : Ieee.position .single (.ofNat .single 1) = some (2 ^ 149) := by decide +kernel
    have ordered : Ieee.lt (.ofNat .single 1) (.zero : Binary32) = false := by decide +kernel
    rw [Ieee.clamp]
    by_cases below : value.lt .zero = true
    · exact .inl (by simp [below, ordered])
    · by_cases above : Ieee.lt (.ofNat .single 1) value = true
      · exact .inr (.inl (by simp [below, above]))
      · exact .inr (.inr ⟨by simp [below, above],
          Ieee.le_of_not_lt zero isPlace (by simpa using below),
          Ieee.le_of_not_lt isPlace one (by simpa using above)⟩)

/-- What is stored is a confidence. -/
theorem isConfidence_normalConfidence (value : Binary32) :
    IsConfidence (normalConfidence value) := by
  rcases normalConfidence_cases value with zero | one | ⟨same, confidence⟩
  · exact zero ▸ isConfidence_zero
  · exact one ▸ isConfidence_one
  · rwa [same]

theorem isProper_normalConfidence (proper : value.IsProper) :
    (normalConfidence value).IsProper := by
  rcases normalConfidence_cases value with zero | one | ⟨same, -⟩
  · exact zero ▸ Ieee.isProper_zero false
  · exact one ▸ Ieee.isProper_ofNat (by decide) 1
  · rwa [same]

end Learning

end CodeAtlas
