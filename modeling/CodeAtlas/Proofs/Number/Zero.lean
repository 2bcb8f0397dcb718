import CodeAtlas.Number.Ieee
import Mathlib.Algebra.Order.Ring.Int

/-!
# Zero and what is not a number

Zero stays zero when it is rounded or divided, and only zero is rounded to zero.  What is not a
number stays so, and is smaller than nothing.
-/

namespace CodeAtlas

namespace Ieee

variable {format : Format}

theorem roundQuotient_zero (precision denominator : ℕ) :
    roundQuotient precision 0 denominator = 0 := by
  simp [roundQuotient]

theorem ofUnits_zero (negative : Bool) (denominator : ℕ) :
    ofUnits format negative 0 denominator = .finite negative 0 := by
  rw [ofUnits, roundQuotient_zero]
  exact if_pos (Nat.two_pow_pos _)

/-- A natural number other than zero is not rounded to zero. -/
theorem roundQuotient_one_ne_zero {precision number : ℕ} (some : 0 < precision)
    (nonzero : number ≠ 0) : roundQuotient precision number 1 ≠ 0 := by
  have fits : 2 ^ (number.log2 + 1 - precision) ≤ number :=
    (Nat.pow_le_pow_right (by decide) (by omega)).trans (Nat.log2_self_le nonzero)
  have step : 0 < 2 ^ (number.log2 + 1 - precision) := Nat.two_pow_pos _
  have quotient := Nat.div_pos fits step
  simp only [roundQuotient, Nat.div_one, Nat.one_mul, Nat.pow_eq]
  refine Nat.mul_ne_zero ?_ step.ne'
  split
  · omega
  · split
    · omega
    · split <;> omega

theorem zero_div_ofNat {number : ℕ} (some : 0 < format.precision) (nonzero : number ≠ 0) :
    (zero : Ieee format) / ofNat format number = zero := by
  have scaled : number * Nat.pow 2 format.scale ≠ 0 :=
    Nat.mul_ne_zero nonzero (Nat.two_pow_pos _).ne'
  rw [ofNat, ofRatio, ofUnits]
  split
  · refine (if_neg (roundQuotient_one_ne_zero some scaled)).trans ?_
    rw [Nat.zero_mul, ofUnits_zero]
    rfl
  · rfl

theorem finite_le_zero_iff {negative : Bool} {units : ℕ} :
    (finite negative units : Ieee format).le .zero = true ↔ negative = true ∨ units = 0 := by
  cases negative <;> simp [le, position, zero, signedUnits]

theorem zero_le_finite_iff {negative : Bool} {units : ℕ} :
    (zero : Ieee format).le (.finite negative units) = true ↔ negative = false ∨ units = 0 := by
  cases negative <;> simp [le, position, zero, signedUnits]

theorem infinite_le_zero : (infinite true : Ieee format).le .zero = true := by
  simp [le, position, zero, signedUnits]

theorem finite_mul_eq_ofUnits {first second : Bool} {left right : ℕ} :
    (finite first left * finite second right : Ieee format) =
      ofUnits format (first != second) (left * right) (Nat.pow 2 format.scale) := rfl

theorem le_iff {first second : Ieee format} : first.le second = true ↔
    ∃ left right, first.position = some left ∧ second.position = some right ∧ left ≤ right := by
  rw [le]
  cases first.position <;> cases second.position <;> simp

protected theorem le_trans {first second third : Ieee format} (forth : first.le second = true)
    (further : second.le third = true) : first.le third = true := by
  obtain ⟨left, middle, isLeft, isMiddle, least⟩ := le_iff.mp forth
  obtain ⟨_, right, same, isRight, most⟩ := le_iff.mp further
  obtain rfl := Option.some_inj.mp (isMiddle.symm.trans same)
  exact le_iff.mpr ⟨left, right, isLeft, isRight, Int.le_trans least most⟩

@[simp] theorem le_notANumber {value : Ieee format} {negative : Bool} :
    value.le (.notANumber negative) = false := by
  rw [le]
  cases value.position <;> rfl

theorem clamp_notANumber {lower upper : Ieee format} {negative : Bool} :
    (notANumber negative).clamp lower upper = notANumber negative := by
  have notLess : (notANumber negative).lt lower = false := rfl
  have notMore : upper.lt (notANumber negative) = false := by
    rw [lt]
    cases upper.position <;> rfl
  simp [clamp, notLess, notMore]

theorem mul_notANumber {value : Ieee format} {negative : Bool} (finite : value.isFinite = true) :
    value * notANumber negative = notANumber negative := by
  cases value with
  | finite => rfl
  | infinite => cases finite
  | notANumber => cases finite

end Ieee

end CodeAtlas
