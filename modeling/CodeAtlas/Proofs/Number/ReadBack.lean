import CodeAtlas.Proofs.Number.Boundary
import CodeAtlas.Proofs.Number.Shortest
import Mathlib.Algebra.Order.Field.Power

/-!
# Reading numbers back

Digits and their place are read with three roundings.  What comes out is close to what was written,
and equal to it when nothing is rounded on the way.  For single precision that suffices: the value
read is rounded to the one that was written.  For double precision what is read may differ in the
last bit, but it is always a finite value.
-/

namespace CodeAtlas.JsonNumber.Literal

open Ieee

variable {digits first second : ℕ} {exponent : ℤ}

/-! ## Reading as one operation -/

theorem scale?_of_neg (power : ℤ) (negative : exponent < 0) (least : -308 ≤ exponent)
    (isPower : power = -exponent) :
    scale? digits exponent =
      some (.ofNat .double digits / .ofDecimal .double false 1 power) := by
  rw [scale?, if_pos negative, scaleDown, if_pos least, isPower]

theorem scale?_of_nonneg {value : Binary64} (positive : 0 ≤ exponent) (most : exponent ≤ 308)
    (some : digits ≠ 0)
    (product : .ofNat .double digits * .ofDecimal .double false 1 exponent = value)
    (finite : value.isFinite = true) : scale? digits exponent = .some value := by
  rw [scale?, if_neg (Int.not_lt.mpr positive), if_neg some, if_neg (Int.not_lt.mpr most)]
  simp only [product, finite, if_true]

/-! ## Exact readings -/

theorem exists_scale?_eq (some : 0 < digits) (least : -308 ≤ exponent) (most : exponent ≤ 308)
    (isDigits : IsValue .double digits) (isPower : IsValue .double (10 ^ exponent.natAbs))
    (isResult : IsValue .double (digits * 10 ^ exponent)) :
    ∃ units, scale? digits exponent = .some (.finite false units) ∧
      magnitude .double units = digits * 10 ^ exponent := by
  obtain ⟨number, numberIs, numberValue⟩ := isDigits.exists_ofExact (by decide) false
  obtain ⟨power, powerIs, powerValue⟩ := isPower.exists_ofExact (by decide) false
  obtain ⟨units, unitsIs, unitsValue⟩ := isResult.exists_ofExact (by decide) false
  refine ⟨units, ?_, unitsValue⟩
  rw [← ofNat_eq] at numberIs
  rcases Int.lt_or_le exponent 0 with negative | positive
  · have nonzero : power ≠ 0 := by
      rintro rfl
      rw [magnitude, Nat.cast_zero, zero_div] at powerValue
      exact absurd powerValue.symm (by positivity)
    rw [scale?_of_neg exponent.natAbs negative least (by omega), ofDecimal_eq,
      Nat.cast_one, one_mul, zpow_natCast, powerIs, numberIs, finite_div_finite nonzero,
      numberValue, powerValue, ← unitsIs, bne_self_eq_false]
    have whole : exponent = -(exponent.natAbs : ℤ) := by omega
    conv_rhs => rw [whole, zpow_neg, zpow_natCast, ← div_eq_mul_inv]
  · have whole : exponent = (exponent.natAbs : ℤ) := by omega
    refine scale?_of_nonneg positive most some.ne' ?_ rfl
    rw [whole, zpow_natCast] at unitsIs
    rw [numberIs, whole, ofDecimal_eq, Nat.cast_one, one_mul, zpow_natCast, powerIs,
      finite_mul_finite, numberValue, powerValue, ← unitsIs, bne_self_eq_false]

/-! ## Near readings -/

section

variable {a b exactA exactB result : ℚ}

/-- The quotient of two rounded numbers. -/
theorem abs_div_sub_le (positiveA : 0 ≤ exactA) (positiveB : 0 < exactB)
    (nearA : |a - exactA| ≤ exactA / 2 ^ 53) (nearB : |b - exactB| ≤ exactB / 2 ^ 53) :
    |a / b - exactA / exactB| ≤ exactA / exactB * (5 / 2 ^ 54) := by
  have bLeast : exactB - exactB / 2 ^ 53 ≤ b := by linarith [(abs_le.mp nearB).1]
  have bPositive : 0 < b := by linarith
  have cross : |a * exactB - exactA * b| ≤ exactA * exactB / 2 ^ 52 := by
    calc
      |a * exactB - exactA * b| = |(a - exactA) * exactB - exactA * (b - exactB)| := by ring_nf
      _ ≤ |(a - exactA) * exactB| + |exactA * (b - exactB)| := abs_sub _ _
      _ = |a - exactA| * exactB + exactA * |b - exactB| := by
        rw [abs_mul, abs_mul, abs_of_pos positiveB, abs_of_nonneg positiveA]
      _ ≤ exactA / 2 ^ 53 * exactB + exactA * (exactB / 2 ^ 53) := by gcongr
      _ = exactA * exactB / 2 ^ 52 := by ring
  rw [div_sub_div _ _ bPositive.ne' positiveB.ne', abs_div, abs_of_pos (mul_pos bPositive positiveB),
    div_le_iff₀ (mul_pos bPositive positiveB), mul_comm b exactA]
  calc
    |a * exactB - exactA * b| ≤ exactA * exactB / 2 ^ 52 := cross
    _ ≤ exactA * (5 / 2 ^ 54) * (exactB - exactB / 2 ^ 53) := by
      have product : 0 ≤ exactA * exactB := mul_nonneg positiveA positiveB.le
      linarith
    _ ≤ exactA * (5 / 2 ^ 54) * b := by gcongr
    _ = exactA / exactB * (5 / 2 ^ 54) * (b * exactB) := by field_simp

/-- The product of two rounded numbers. -/
theorem abs_mul_sub_le (positiveA : 0 ≤ exactA) (positiveB : 0 < exactB)
    (nearA : |a - exactA| ≤ exactA / 2 ^ 53) (nearB : |b - exactB| ≤ exactB / 2 ^ 53) :
    |a * b - exactA * exactB| ≤ exactA * exactB * (5 / 2 ^ 54) := by
  have product : 0 ≤ exactA * exactB := mul_nonneg positiveA positiveB.le
  calc
    |a * b - exactA * exactB| =
        |(a - exactA) * (b - exactB) + (exactA * (b - exactB) + (a - exactA) * exactB)| := by
      ring_nf
    _ ≤ |a - exactA| * |b - exactB| + (exactA * |b - exactB| + |a - exactA| * exactB) := by
      rw [← abs_mul]
      refine (abs_add_le _ _).trans (add_le_add_right ((abs_add_le _ _).trans ?_) _)
      rw [abs_mul, abs_mul, abs_of_pos positiveB, abs_of_nonneg positiveA]
    _ ≤ exactA / 2 ^ 53 * (exactB / 2 ^ 53) +
        (exactA * (exactB / 2 ^ 53) + exactA / 2 ^ 53 * exactB) := by gcongr
    _ ≤ exactA * exactB * (5 / 2 ^ 54) := by linarith

end

/-- Numbers of usual size are rounded to double precision with a small part of them as error. -/
theorem exists_double_near {value : ℚ} (least : 1 ≤ value * 2 ^ 1000)
    (most : value + value / 2 ^ 53 < 2 ^ 1024) :
    ∃ units, ofExact .double false value = .finite false units ∧
      |magnitude .double units - value| ≤ value / 2 ^ 53 := by
  refine @exists_ofExact_near .double _ _ (by decide) ?_ ?_
  · calc
      (2 : ℚ) ^ (Format.double.precision - 1) ≤ 2 ^ 74 :=
        pow_le_pow_right₀ (by norm_num) (by decide)
      _ ≤ value * 2 ^ 1000 * 2 ^ 74 := le_mul_of_one_le_left (by positivity) least
      _ = value * 2 ^ Format.double.scale := by rw [mul_assoc, ← pow_add, Format.double]
  · calc
      (value + value / 2 ^ Format.double.precision) * 2 ^ Format.double.scale <
          2 ^ 1024 * 2 ^ Format.double.scale := mul_lt_mul_of_pos_right most (by positivity)
      _ = 2 ^ Format.double.width := by rw [← pow_add]; rfl

/-- One more rounding of what is nearly an exact number. -/
theorem exists_double_near_exact {value exact : ℚ} (positive : 0 ≤ exact)
    (large : 2 ≤ exact * 2 ^ 1000) (fits : exact + exact / 2 ^ 51 < 2 ^ 1024)
    (near : |value - exact| ≤ exact * (5 / 2 ^ 54)) :
    ∃ units, ofExact .double false value = .finite false units ∧
      |magnitude .double units - exact| ≤ exact / 2 ^ 51 := by
  obtain ⟨low, high⟩ := abs_le.mp near
  have half : exact / 2 ≤ value := by linarith only [low, positive]
  have halved : 1 ≤ exact / 2 * 2 ^ 1000 := by
    rwa [div_mul_eq_mul_div, le_div_iff₀ (by norm_num), one_mul]
  have less : value + value / 2 ^ 53 ≤ exact + exact / 2 ^ 51 := by
    linarith only [high, positive]
  obtain ⟨units, unitsIs, unitsNear⟩ := exists_double_near
    (halved.trans (mul_le_mul_of_nonneg_right half (by positivity))) (less.trans_lt fits)
  refine ⟨units, unitsIs, ?_⟩
  calc
    |magnitude .double units - exact| =
        |(magnitude .double units - value) + (value - exact)| := by rw [sub_add_sub_cancel]
    _ ≤ |magnitude .double units - value| + |value - exact| := abs_add_le _ _
    _ ≤ exact / 2 ^ 51 := by linarith only [unitsNear, near, high, positive]

/-- The powers of ten that numbers are scaled by. -/
theorem exists_double_of_power {places : ℕ} (few : places ≤ 308) :
    ∃ units, ofExact .double false (10 ^ places) = .finite false units ∧ units ≠ 0 ∧
      |magnitude .double units - 10 ^ places| ≤ 10 ^ places / 2 ^ 53 := by
  have least : (1 : ℚ) ≤ 10 ^ places := one_le_pow₀ (by norm_num)
  have most : (10 : ℚ) ^ places ≤ 10 ^ 308 := pow_le_pow_right₀ (by norm_num) few
  have greatest : (10 ^ 308 + 10 ^ 308 / 2 ^ 53 : ℚ) < 2 ^ 1024 := by
    have cleared : (10 ^ 308 * (2 ^ 53 + 1) : ℕ) < 2 ^ 1024 * 2 ^ 53 := by decide +kernel
    have cast : (10 ^ 308 * (2 ^ 53 + 1) : ℚ) < 2 ^ 1024 * 2 ^ 53 := by exact_mod_cast cleared
    rw [add_div' _ _ _ (by positivity), div_lt_iff₀ (by positivity), ← mul_add_one]
    exact cast
  obtain ⟨units, isUnits, near⟩ := exists_double_near
    (least.trans (le_mul_of_one_le_right (by positivity) (one_le_pow₀ (by norm_num))))
    ((by gcongr : _ ≤ (10 ^ 308 + 10 ^ 308 / 2 ^ 53 : ℚ)).trans_lt greatest)
  refine ⟨units, isUnits, ?_, near⟩
  rintro rfl
  rw [magnitude, Nat.cast_zero, zero_div] at near
  linarith only [(abs_le.mp near).1, least]

theorem exists_double_of_digits (some : 0 < digits) (few : digits < 2 ^ 64) :
    ∃ units, ofNat .double digits = .finite false units ∧
      |magnitude .double units - digits| ≤ digits / 2 ^ 53 := by
  have one : (1 : ℚ) ≤ digits := by exact_mod_cast some
  have less : (digits : ℚ) < 2 ^ 64 := by exact_mod_cast few
  rw [ofNat_eq]
  exact exists_double_near
    (one.trans (le_mul_of_one_le_right (by positivity) (one_le_pow₀ (by norm_num))))
    (calc
      (digits + digits / 2 ^ 53 : ℚ) < 2 ^ 65 := by linarith
      _ ≤ 2 ^ 1024 := pow_le_pow_right₀ (by norm_num) (by decide))

/-- Digits that fit 64 bits are read with a small part of their number as error. -/
theorem exists_scale?_near (some : 0 < digits) (few : digits < 2 ^ 64) (least : -308 ≤ exponent)
    (most : exponent ≤ 308) (large : 2 ≤ (digits * 10 ^ exponent : ℚ) * 2 ^ 1000)
    (fits : (digits * 10 ^ exponent + digits * 10 ^ exponent / 2 ^ 51 : ℚ) < 2 ^ 1024) :
    ∃ units, scale? digits exponent = .some (.finite false units) ∧
      |magnitude .double units - digits * 10 ^ exponent| ≤ digits * 10 ^ exponent / 2 ^ 51 := by
  obtain ⟨number, numberIs, numberNear⟩ := exists_double_of_digits some few
  obtain ⟨power, powerIs, nonzero, powerNear⟩ :=
    exists_double_of_power (by omega : exponent.natAbs ≤ 308)
  rcases Int.lt_or_le exponent 0 with negative | positive
  · have whole : exponent = -(exponent.natAbs : ℤ) := by omega
    have exact : (digits / 10 ^ exponent.natAbs : ℚ) = digits * 10 ^ exponent := by
      conv_rhs => rw [whole, zpow_neg, zpow_natCast, ← div_eq_mul_inv]
    rw [← exact] at large fits ⊢
    obtain ⟨units, unitsIs, unitsNear⟩ := exists_double_near_exact (by positivity) large fits
      (abs_div_sub_le (by positivity) (by positivity) numberNear powerNear)
    refine ⟨units, ?_, unitsNear⟩
    rw [scale?_of_neg exponent.natAbs negative least (by omega), ofDecimal_eq,
      Nat.cast_one, one_mul, zpow_natCast, powerIs, numberIs, finite_div_finite nonzero,
      bne_self_eq_false, unitsIs]
  · have whole : exponent = (exponent.natAbs : ℤ) := by omega
    have exact : (digits * 10 ^ exponent.natAbs : ℚ) = digits * 10 ^ exponent := by
      conv_rhs => rw [whole, zpow_natCast]
    rw [← exact] at large fits ⊢
    obtain ⟨units, unitsIs, unitsNear⟩ := exists_double_near_exact (by positivity) large fits
      (abs_mul_sub_le (by positivity) (by positivity) numberNear powerNear)
    refine ⟨units, scale?_of_nonneg positive most some.ne' ?_ rfl, unitsNear⟩
    rw [numberIs, whole, ofDecimal_eq, Nat.cast_one, one_mul, zpow_natCast, powerIs,
      finite_mul_finite, bne_self_eq_false, unitsIs]

/-! ## Finite readings -/

/-- A division by ten or more keeps a number below the limit of 64 bits. -/
theorem exists_div_power {units : ℕ} {power : ℤ}
    (few : units ≤ 2 ^ (64 + Format.double.scale)) (least : 1 ≤ power) (most : power ≤ 308) :
    ∃ quotient ≤ 2 ^ (64 + Format.double.scale),
      (.finite false units / .ofDecimal .double false 1 power : Binary64) =
        .finite false quotient := by
  obtain ⟨places, rfl⟩ := Int.eq_ofNat_of_zero_le (by omega : 0 ≤ power)
  obtain ⟨divisor, divisorIs, nonzero, near⟩ := exists_double_of_power (by omega : places ≤ 308)
  have ten : (10 : ℚ) ^ 1 ≤ 10 ^ places := pow_le_pow_right₀ (by norm_num) (by omega)
  have divisorMore : 1 < magnitude .double divisor := by
    linarith only [(abs_le.mp near).1, ten]
  have less : magnitude .double units / magnitude .double divisor * 2 ^ Format.double.scale <
      2 ^ (64 + Format.double.scale) := by
    rw [div_mul_eq_mul_div, magnitude_mul_two_pow, div_lt_iff₀ (by linarith only [divisorMore])]
    calc
      (units : ℚ) ≤ (2 ^ (64 + Format.double.scale) : ℕ) := Nat.cast_le.mpr few
      _ = 2 ^ (64 + Format.double.scale) := by rw [Nat.cast_pow, Nat.cast_ofNat]
      _ < 2 ^ (64 + Format.double.scale) * magnitude .double divisor :=
        lt_mul_of_one_lt_right (by positivity) divisorMore
  have positive : 0 ≤ magnitude .double units / magnitude .double divisor *
      2 ^ Format.double.scale :=
    mul_nonneg (div_nonneg magnitude_nonneg magnitude_nonneg) (by positivity)
  have bound := @roundTo_le_two_pow Format.double.precision _ (64 + Format.double.scale)
    (by decide) positive (by decide) less
  refine ⟨_, bound, ?_⟩
  rw [ofDecimal_eq, Nat.cast_one, one_mul, zpow_natCast, divisorIs, finite_div_finite nonzero,
    ofExact_eq_finite_iff]
  exact ⟨rfl, rfl, bound.trans_lt (Nat.pow_lt_pow_right (by decide) (by decide))⟩

theorem exists_scaleDown (steps : ℕ) {units : ℕ} {exponent : ℤ}
    (few : units ≤ 2 ^ (64 + Format.double.scale)) (negative : exponent < 0) :
    ∃ quotient, scaleDown steps (.finite false units) exponent = .finite false quotient := by
  induction steps generalizing units exponent with
  | zero => exact ⟨units, rfl⟩
  | succ steps induction =>
      rw [scaleDown]
      split
      next inReach =>
        obtain ⟨quotient, -, same⟩ := exists_div_power few (by omega : 1 ≤ -exponent) (by omega)
        exact ⟨quotient, same⟩
      next =>
        split
        next => exact ⟨units, rfl⟩
        next =>
          obtain ⟨quotient, less, same⟩ := exists_div_power few (by omega : 1 ≤ (308 : ℤ)) le_rfl
          rw [same]
          exact induction less (by omega)

/-- Digits before a point are never too large. -/
theorem exists_scale?_of_neg (few : digits < 2 ^ 64) (negative : exponent < 0) :
    ∃ units, scale? digits exponent = some (.finite false units) := by
  have less : (digits : ℚ) * 2 ^ Format.double.scale < 2 ^ (64 + Format.double.scale) := by
    have cast : (digits : ℚ) < 2 ^ 64 := by exact_mod_cast few
    calc
      (digits : ℚ) * 2 ^ Format.double.scale < 2 ^ 64 * 2 ^ Format.double.scale := by gcongr
      _ = 2 ^ (64 + Format.double.scale) := (pow_add _ _ _).symm
  have positive : (0 : ℚ) ≤ digits * 2 ^ Format.double.scale :=
    mul_nonneg (Nat.cast_nonneg _) (pow_nonneg (by norm_num) _)
  have bound := @roundTo_le_two_pow Format.double.precision _ (64 + Format.double.scale)
    (by decide) positive (by decide) less
  have isUnits : ofNat .double digits = .finite false
      (roundTo Format.double.precision (digits * 2 ^ Format.double.scale)) := by
    rw [ofNat_eq, ofExact_eq_finite_iff]
    exact ⟨rfl, rfl, bound.trans_lt (Nat.pow_lt_pow_right (by decide) (by decide))⟩
  obtain ⟨quotient, same⟩ := exists_scaleDown (exponent.natAbs / 308 + 1) bound negative
  exact ⟨quotient, by rw [scale?, if_pos negative, isUnits, same]⟩

end CodeAtlas.JsonNumber.Literal

namespace CodeAtlas.Decimal

open Ieee JsonNumber Literal

variable {decimal : Decimal} {units : ℕ} {limit written read : ℚ}

/-! ## The decimal that is read -/

theorem value_asRead (decimal : Decimal) : decimal.asRead.value = decimal.value := by
  rw [asRead]
  split
  next zero => simp [value, zero]
  next =>
    split
    next whole =>
      obtain ⟨places, same⟩ := Int.eq_ofNat_of_zero_le whole.1
      rw [value, value, same, Int.toNat_natCast, zpow_natCast, zpow_neg_one]
      push_cast
      rw [pow_succ]
      field_simp
    next => rfl

theorem digits_asRead_lt (few : decimal.digits < 2 ^ 64) : decimal.asRead.digits < 2 ^ 64 := by
  rw [asRead]
  split
  next => positivity
  next =>
    split
    next whole =>
      have less : decimal.digits < 10 ^ (Nat.toDigits 10 decimal.digits).length :=
        (Nat.length_toDigits_le_iff (by decide) Nat.length_toDigits_pos).mp le_rfl
      calc
        decimal.digits * 10 ^ (decimal.exponent.toNat + 1) <
            10 ^ (Nat.toDigits 10 decimal.digits).length * 10 ^ (decimal.exponent.toNat + 1) :=
          Nat.mul_lt_mul_of_pos_right less (by positivity)
        _ = 10 ^ ((Nat.toDigits 10 decimal.digits).length + (decimal.exponent.toNat + 1)) :=
          (Nat.pow_add _ _ _).symm
        _ ≤ 10 ^ 17 := Nat.pow_le_pow_right (by decide) (by omega)
        _ ≤ 2 ^ 64 := by norm_num
    next => exact few

/-! ## Ends of intervals -/

/-- An end of the interval of single-precision units: a multiple of a quarter of a power of two,
which is also how far it lies from the units. -/
def IsEnd (units : ℕ) (limit : ℚ) : Prop :=
  ∃ middle place : ℕ, middle < 2 ^ 25 ∧ 0 < middle ∧ 1 ≤ place ∧ place ≤ 254 ∧
    limit = middle * (2 ^ place / 4) ∧ |limit - units| = 2 ^ place / 4

theorem excess_le (fits : units < 2 ^ Format.single.width) : excess 24 units ≤ 253 := by
  by_cases zero : units = 0
  · rw [zero, excess, Nat.log2_zero]
    omega
  · have log := (Nat.log2_lt zero).mpr fits
    simp only [Format.single] at log
    rw [excess]
    omega

theorem isEnd_upperEnd (rounded : IsRounded 24 units) (fits : units < 2 ^ Format.single.width) :
    IsEnd units (upperEnd 24 units) := by
  obtain ⟨significand, less, isUnits⟩ := rounded.exists_significand
  have places := excess_le fits
  rw [upperEnd]
  generalize excess 24 units = place at *
  refine ⟨2 * significand + 1, place + 1, by omega, by omega, by omega, by omega, ?_, ?_⟩
  · rw [isUnits]
    push_cast
    ring
  · rw [add_sub_cancel_left, abs_of_pos (by positivity)]
    ring

theorem isEnd_lowerEnd (positive : 0 < units) (rounded : IsRounded 24 units)
    (fits : units < 2 ^ Format.single.width) : IsEnd units (lowerEnd 24 units) := by
  obtain ⟨significand, less, isUnits⟩ := rounded.exists_significand
  have places := excess_le fits
  rw [lowerEnd]
  generalize excess 24 units = place at *
  split
  next power =>
    refine ⟨2 ^ 25 - 1, place, by norm_num, by norm_num, by omega, by omega, ?_, ?_⟩
    · have exponent : 24 + place - 1 = 23 + place := by omega
      rw [power.2, exponent]
      push_cast
      ring
    · rw [sub_sub_cancel_left, abs_neg, abs_of_pos (by positivity)]
  next =>
    have some : significand ≠ 0 := by
      rintro rfl
      omega
    obtain ⟨before, rfl⟩ := Nat.exists_eq_succ_of_ne_zero some
    refine ⟨2 * before + 1, place + 1, by omega, by omega, by omega, by omega, ?_, ?_⟩
    · rw [isUnits]
      push_cast
      ring
    · rw [sub_sub_cancel_left, abs_neg, abs_of_pos (by positivity)]
      ring

/-- Between a number that is rounded to units and one that is not lies an end of their interval. -/
theorem exists_isEnd (positive : 0 < units) (rounded : IsRounded 24 units)
    (fits : units < 2 ^ Format.single.width) (writtenPositive : 0 ≤ written) (readPositive : 0 ≤ read)
    (isWritten : roundTo 24 written = units) (notRead : roundTo 24 read ≠ units) :
    ∃ limit, IsEnd units limit ∧ |limit - written| ≤ |read - written| := by
  obtain ⟨low, high⟩ := mem_interval_of_roundTo (by decide) writtenPositive isWritten
  rcases le_or_gt read (lowerEnd 24 units) with below | notBelow
  · refine ⟨_, isEnd_lowerEnd positive rounded fits, ?_⟩
    rw [abs_of_nonpos (by linarith), abs_of_nonpos (by linarith)]
    linarith
  · rcases le_or_gt (upperEnd 24 units) read with above | notAbove
    · refine ⟨_, isEnd_upperEnd rounded fits, ?_⟩
      rw [abs_of_nonneg (by linarith), abs_of_nonneg (by linarith)]
      linarith
    · exact absurd
        (roundTo_eq_of_mem_interval (by decide) readPositive rounded notBelow notAbove) notRead

/-- A decimal close to few units has few digits, and its own unit is neither too small nor too
large beside them. -/
theorem bounds_of_near {digits middle : ℕ} {ratio : ℚ} (some : 0 < middle) (small : middle < 2 ^ 25)
    (ratioLeast : 3 / 4 ≤ ratio)
    (near : |(middle : ℚ) - digits * ratio| ≤ digits * ratio / 2 ^ 51) :
    0 < digits ∧ digits < 2 ^ 26 ∧ ratio ≤ 101 / 100 * 2 ^ 25 := by
  obtain ⟨low, high⟩ := abs_le.mp near
  have cast : (middle : ℚ) + 1 ≤ 2 ^ 25 := by exact_mod_cast small
  have one : (1 : ℚ) ≤ middle := by exact_mod_cast some
  have product : digits * ratio ≤ 2 ^ 25 := by linarith only [low, cast]
  have digitsSome : 0 < digits := by
    refine Nat.pos_of_ne_zero fun zero => ?_
    rw [zero, Nat.cast_zero, zero_mul] at high
    linarith only [high, one]
  have digitsOne : (1 : ℚ) ≤ digits := by exact_mod_cast digitsSome
  have ratioPositive : 0 ≤ ratio := (by norm_num : (0 : ℚ) ≤ 3 / 4).trans ratioLeast
  refine ⟨digitsSome, ?_, ?_⟩
  · have bound := mul_le_mul_of_nonneg_left ratioLeast (Nat.cast_nonneg digits : (0 : ℚ) ≤ digits)
    have less : (digits : ℚ) < 2 ^ 26 := by linarith only [bound, product]
    exact_mod_cast less
  · linarith only [product, le_mul_of_one_le_left ratioPositive digitsOne]

/-- The exponents whose unit is neither too small nor too large beside some place. -/
theorem exponent_bounds_of_ratio {exponent : ℤ} {place : ℕ} {ratio : ℚ}
    (isRatio : ratio = 10 ^ exponent * 2 ^ 151 / 2 ^ place) (least : 1 ≤ place)
    (most : place ≤ 254) (ratioLeast : 3 / 4 ≤ ratio) (ratioMost : ratio ≤ 101 / 100 * 2 ^ 25) :
    -45 ≤ exponent ∧ exponent ≤ 38 := by
  have unit : (10 : ℚ) ^ exponent = ratio * 2 ^ place / 2 ^ 151 := by
    rw [isRatio]
    field_simp
  constructor
  · have smallest : (2 : ℚ) ^ 1 ≤ 2 ^ place := pow_le_pow_right₀ (by norm_num) least
    have more : (10 : ℚ) ^ (-46 : ℤ) < 10 ^ exponent := by
      rw [unit, lt_div_iff₀ (by positivity)]
      calc
        (10 ^ (-46 : ℤ) * 2 ^ 151 : ℚ) < 3 / 4 * 2 ^ 1 := by norm_num
        _ ≤ ratio * 2 ^ place := by gcongr
    have := (zpow_lt_zpow_iff_right₀ (by norm_num)).mp more
    omega
  · have greatest : (2 : ℚ) ^ place ≤ 2 ^ 254 := pow_le_pow_right₀ (by norm_num) most
    have less : (10 : ℚ) ^ exponent < 10 ^ (39 : ℤ) := by
      rw [unit, div_lt_iff₀ (by positivity)]
      calc
        ratio * 2 ^ place ≤ 101 / 100 * 2 ^ 25 * 2 ^ 254 := by gcongr
        _ < (10 : ℚ) ^ (39 : ℤ) * 2 ^ 151 := by norm_num
    have := (zpow_lt_zpow_iff_right₀ (by norm_num)).mp less
    omega

/-- A candidate that comes close to an end is on it or harmless. -/
theorem eq_end_or_isHarmless (isEnd : IsEnd units limit)
    (isCandidate : |decimal.value * 2 ^ 149 - units| ≤ (10 : ℚ) ^ decimal.exponent * 2 ^ 149)
    (near : |limit - decimal.value * 2 ^ 149| ≤ decimal.value * 2 ^ 149 / 2 ^ 51) :
    (limit = decimal.value * 2 ^ 149 ∧ decimal.digits < 2 ^ 26) ∨ isHarmless decimal = true := by
  obtain ⟨digits, exponent⟩ := decimal
  obtain ⟨middle, place, small, some, least, most, rfl, distance⟩ := isEnd
  simp only [value] at isCandidate near ⊢
  generalize isRatio : (10 ^ exponent * 2 ^ 151 / 2 ^ place : ℚ) = ratio
  have quarter : (0 : ℚ) < 2 ^ place / 4 := by positivity
  have unitIs : (10 ^ exponent * 2 ^ 149 : ℚ) = ratio * (2 ^ place / 4) := by
    rw [← isRatio]
    field_simp
    norm_num
  rw [mul_assoc, unitIs, ← mul_assoc] at isCandidate near ⊢
  -- Everything in quarters of the power of two.
  have nearQuarters : |(middle : ℚ) - digits * ratio| ≤ digits * ratio / 2 ^ 51 := by
    rw [← sub_mul, abs_mul, abs_of_pos quarter, mul_div_right_comm] at near
    exact le_of_mul_le_mul_right near quarter
  have ratioLeast : 3 / 4 ≤ ratio := by
    have product : digits * ratio ≤ 2 ^ 25 := by
      have cast : (middle : ℚ) + 1 ≤ 2 ^ 25 := by exact_mod_cast small
      linarith only [(abs_le.mp nearQuarters).1, cast]
    have triangle := abs_sub_le ((middle : ℚ) * (2 ^ place / 4))
      (digits * ratio * (2 ^ place / 4)) units
    rw [distance] at triangle
    have scaled : (1 : ℚ) * (2 ^ place / 4) ≤
        (digits * ratio / 2 ^ 51 + ratio) * (2 ^ place / 4) := by
      rw [add_mul, div_mul_eq_mul_div, one_mul]
      linarith only [triangle, near, isCandidate]
    linarith only [le_of_mul_le_mul_right scaled quarter, product]
  obtain ⟨digitsSome, digitsFew, ratioMost⟩ := bounds_of_near some small ratioLeast nearQuarters
  obtain ⟨exponentLeast, exponentMost⟩ :=
    exponent_bounds_of_ratio isRatio.symm least most ratioLeast ratioMost
  refine (eq_or_isHarmless (isIsolated_of_bounds exponentLeast exponentMost least most)
    isRatio.symm ratioLeast ratioMost digitsSome digitsFew small nearQuarters).imp_left
    fun onEnd => ⟨by rw [onEnd], digitsFew⟩

/-! ## Decimals on an end -/

/-- A number that is a few bits at a place of single precision. -/
theorem isValue_of_middle {middle place : ℕ} {value : ℚ} (small : middle < 2 ^ 53)
    (same : value * 2 ^ 151 = middle * 2 ^ place) (fits : value ≤ 2 ^ 140) :
    IsValue .double value := by
  refine @isValue_of_significand .double value middle (place - 151) (by decide) small
    (by simp only [Format.double]; omega) ?_ ?_
  · rw [zpow_sub₀ (by norm_num), zpow_natCast, ← mul_div_assoc, ← same]
    exact (mul_div_cancel_right₀ _ (by norm_num)).symm
  · calc
      value * 2 ^ Format.double.scale ≤ 2 ^ 140 * 2 ^ Format.double.scale := by gcongr
      _ < 2 ^ Format.double.width := by
        rw [← pow_add]
        exact pow_lt_pow_right₀ (by norm_num) (by decide)

theorem isValue_natCast {number : ℕ} (few : number < 2 ^ 53) : IsValue .double number := by
  have less : (number : ℚ) < 2 ^ 53 := by exact_mod_cast few
  refine @isValue_of_middle number 151 number few rfl ?_
  exact less.le.trans (pow_le_pow_right₀ (by norm_num) (by decide))

/-- The power of ten of a decimal of few digits that is a few bits is small. -/
theorem natAbs_exponent_le {middle place : ℕ} (some : 0 < middle) (small : middle < 2 ^ 25)
    (digitsSome : 0 < decimal.digits) (few : decimal.digits < 2 ^ 26)
    (same : decimal.value * 2 ^ 151 = middle * 2 ^ place) : decimal.exponent.natAbs ≤ 11 := by
  obtain ⟨digits, exponent⟩ := decimal
  simp only [value] at *
  have powers (count : ℕ) : (5 ^ count).Coprime (2 ^ place) ∧ (5 ^ count).Coprime (2 ^ 151) :=
    ⟨Nat.Coprime.pow _ _ (by decide), Nat.Coprime.pow _ _ (by decide)⟩
  have bound {count number : ℕ} (positive : 0 < number) (less : number < 2 ^ 26)
      (divides : 5 ^ count ∣ number) : count ≤ 11 := by
    have most : 5 ^ count < 5 ^ 12 :=
      (Nat.le_of_dvd positive divides).trans_lt (less.trans (by norm_num))
    exact Nat.lt_succ_iff.mp ((Nat.pow_lt_pow_iff_right (by decide)).mp most)
  rcases Int.le_total 0 exponent with whole | fraction
  · obtain ⟨count, rfl⟩ := Int.eq_ofNat_of_zero_le whole
    rw [zpow_natCast] at same
    have natural : digits * 10 ^ count * 2 ^ 151 = middle * 2 ^ place := by exact_mod_cast same
    refine bound some (small.trans (by norm_num)) ((powers count).1.dvd_of_dvd_mul_right ?_)
    rw [← natural, show 10 = 5 * 2 from rfl, Nat.mul_pow]
    exact ⟨digits * 2 ^ count * 2 ^ 151, by ring⟩
  · obtain ⟨count, rfl⟩ := Int.exists_eq_neg_ofNat fraction
    rw [zpow_neg, zpow_natCast] at same
    have cleared : (digits * 2 ^ 151 : ℚ) = middle * 2 ^ place * 10 ^ count := by
      rw [← same]
      field_simp
    have natural : digits * 2 ^ 151 = middle * 2 ^ place * 10 ^ count := by exact_mod_cast cleared
    rw [Int.natAbs_neg, Int.natAbs_natCast]
    refine bound digitsSome few ((powers count).2.dvd_of_dvd_mul_right ?_)
    rw [natural, show 10 = 5 * 2 from rfl, Nat.mul_pow]
    exact ⟨middle * 2 ^ place * 2 ^ count, by ring⟩

/-- A decimal of few digits on an end is read exactly. -/
theorem exists_reading?_of_isEnd (isEnd : IsEnd units (decimal.value * 2 ^ 149))
    (digitsSome : 0 < decimal.digits) (few : decimal.digits < 2 ^ 26)
    (fits : decimal.value ≤ 2 ^ 129) :
    ∃ units, decimal.reading? = some (.finite false units) ∧
      magnitude .double units = decimal.value := by
  obtain ⟨middle, place, small, middleSome, -, -, same, -⟩ := isEnd
  have onPlace : decimal.value * 2 ^ 151 = middle * 2 ^ place := by
    have scaled : decimal.value * 2 ^ 151 = decimal.value * 2 ^ 149 * 4 := by ring
    rw [scaled, same]
    ring
  have exponentFew := natAbs_exponent_le middleSome small digitsSome few onPlace
  have isResult : IsValue .double decimal.value :=
    isValue_of_middle (small.trans (by norm_num)) onPlace
      (fits.trans (pow_le_pow_right₀ (by norm_num) (by decide)))
  rw [reading?]
  rw [← value_asRead] at isResult ⊢
  rw [asRead, if_neg digitsSome.ne'] at isResult ⊢
  split
  next whole =>
    rw [if_pos whole] at isResult
    refine exists_scale?_eq (by positivity) (by norm_num) (by norm_num) ?_ ?_ isResult
    · have tenfold : ((decimal.digits * 10 ^ (decimal.exponent.toNat + 1) : ℕ) : ℚ) =
          decimal.value * 10 := by
        obtain ⟨places, isPlaces⟩ := Int.eq_ofNat_of_zero_le whole.1
        rw [value, isPlaces, Int.toNat_natCast, zpow_natCast]
        push_cast
        ring
      rw [tenfold]
      refine @isValue_of_middle (5 * middle) (place + 1) _ (by omega) ?_ ?_
      · rw [mul_right_comm, onPlace]
        push_cast
        ring
      · linarith only [fits]
    · exact isValue_natCast (by norm_num)
  next notWhole =>
    rw [if_neg notWhole] at isResult
    refine exists_scale?_eq digitsSome (by omega) (by omega)
      (isValue_natCast (few.trans (by norm_num))) ?_ isResult
    have power : (10 : ℚ) ^ decimal.exponent.natAbs = (10 ^ decimal.exponent.natAbs : ℕ) := by
      push_cast
      rfl
    rw [power]
    refine isValue_natCast ?_
    calc
      10 ^ decimal.exponent.natAbs ≤ 10 ^ 11 := Nat.pow_le_pow_right (by decide) exponentFew
      _ < 2 ^ 53 := by norm_num

/-! ## Single precision -/

/-- What is read of a shortest decimal, when that is known to be near. -/
theorem exists_reading?_near (few : decimal.digits < 2 ^ 64)
    (least : 1 / 2 ≤ decimal.value * 2 ^ 149) (most : decimal.value ≤ 2 ^ 129) :
    ∃ units, decimal.reading? = some (.finite false units) ∧
      |magnitude .double units - decimal.value| ≤ decimal.value / 2 ^ 51 := by
  have digitsFew := digits_asRead_lt few
  rw [reading?]
  rw [← value_asRead] at least most ⊢
  generalize decimal.asRead = read at *
  have digitsSome : 0 < read.digits := digits_pos (by linarith only [least])
  obtain ⟨digits, exponent⟩ := read
  simp only [value] at *
  have one : (1 : ℚ) ≤ digits := by exact_mod_cast digitsSome
  have less : (digits : ℚ) < 2 ^ 64 := by exact_mod_cast digitsFew
  have unit : (0 : ℚ) < 10 ^ exponent := by positivity
  have exponentMost : exponent < 39 := by
    refine (zpow_lt_zpow_iff_right₀ (by norm_num : (1 : ℚ) < 10)).mp ?_
    calc
      (10 : ℚ) ^ exponent ≤ digits * 10 ^ exponent := le_mul_of_one_le_left unit.le one
      _ ≤ 2 ^ 129 := most
      _ < 10 ^ (39 : ℤ) := by norm_num
  have exponentLeast : -65 < exponent := by
    refine (zpow_lt_zpow_iff_right₀ (by norm_num : (1 : ℚ) < 10)).mp ?_
    have bound := mul_lt_mul_of_pos_right less unit
    calc
      (10 : ℚ) ^ (-65 : ℤ) < 1 / 2 ^ 214 := by norm_num
      _ ≤ 10 ^ exponent := by linarith only [bound, least]
  refine exists_scale?_near digitsSome digitsFew (by omega) (by omega) ?_ ?_
  · calc
      (2 : ℚ) = 1 / 2 * 2 ^ 2 := by norm_num
      _ ≤ 1 / 2 * 2 ^ 851 := by
        have wide : (2 : ℚ) ^ 2 ≤ 2 ^ 851 := pow_le_pow_right₀ (by norm_num) (by decide)
        gcongr
      _ ≤ digits * 10 ^ exponent * 2 ^ 149 * 2 ^ 851 := by gcongr
      _ = digits * 10 ^ exponent * 2 ^ 1000 := by rw [mul_assoc _ (2 ^ 149), ← pow_add]
  · calc
      (digits * 10 ^ exponent + digits * 10 ^ exponent / 2 ^ 51 : ℚ) < 2 ^ 130 := by
        linarith only [most]
      _ ≤ 2 ^ 1024 := pow_le_pow_right₀ (by norm_num) (by decide)

theorem readsAsItself_of_reading? {read : ℕ}
    (isRead : (shortest .single units).reading? = some (.finite false read))
    (same : roundTo 24 (magnitude .double read * 2 ^ 149) = units)
    (fits : units < 2 ^ Format.single.width) : readsAsItself units = true := by
  have converted : (.finite false read : Binary64).convert .single = .finite false units := by
    rw [convert_finite, ofExact_eq_finite_iff]
    exact ⟨rfl, same, fits⟩
  exact (Option.any_eq_true _ _).mpr ⟨_, isRead, beq_iff_eq.mpr converted⟩

theorem reading?_shortest_zero {format : Format} (some : 0 < format.precision) :
    (shortest format 0).reading? = .some (.finite false 0) := by
  rw [reading?, asRead, if_pos (digits_shortest_zero some)]
  decide +kernel

theorem readsAsItself_zero : readsAsItself 0 = true := by
  refine readsAsItself_of_reading? (reading?_shortest_zero (by decide)) ?_ (Nat.two_pow_pos _)
  rw [magnitude, Nat.cast_zero, zero_div, zero_mul]
  exact_mod_cast @roundTo_natCast _ 0 (by decide) ⟨0, rfl⟩

/-- What is rounded to units of single precision lies within half a step of them, and a step is no
more than they are. -/
theorem bounds_of_roundTo (positive : 0 < units) (rounded : IsRounded 24 units)
    (fits : units < 2 ^ Format.single.width) (writtenPositive : 0 ≤ written)
    (isWritten : roundTo 24 (written * 2 ^ 149) = units) :
    1 / 2 ≤ written * 2 ^ 149 ∧ written ≤ 2 ^ 129 := by
  have one : (1 : ℚ) ≤ units := by exact_mod_cast positive
  have less : (units : ℚ) < 2 ^ 128 * 2 ^ 149 := by
    calc
      (units : ℚ) < (2 ^ Format.single.width : ℕ) := Nat.cast_lt.mpr fits
      _ = 2 ^ 128 * 2 ^ 149 := by
        rw [show Format.single.width = 128 + 149 from rfl, Nat.cast_pow, Nat.cast_ofNat, pow_add]
  have step : (2 : ℚ) ^ excess 24 units ≤ units := by
    exact_mod_cast Nat.le_of_dvd positive rounded
  obtain ⟨low, high⟩ := mem_interval_of_roundTo (by decide) (by positivity) isWritten
  rw [upperEnd] at high
  constructor
  · linarith only [low, le_lowerEnd 24 units, step, one]
  · linarith only [high, step, less]

/-- The text of a single-precision value is read as the value. -/
theorem readsAsItself_of_isRounded (rounded : IsRounded 24 units)
    (fits : units < 2 ^ Format.single.width) : readsAsItself units = true := by
  rcases Nat.eq_zero_or_pos units with rfl | positive
  · exact readsAsItself_zero
  have scale : (0 : ℚ) < 2 ^ 149 := by positivity
  obtain ⟨candidate, member, sameValue, fewer, reads⟩ :=
    @exists_candidate_of_shortest .single _ (by decide) (by decide) rounded fits positive
  obtain ⟨distance, digitsMost⟩ := bounds_of_mem_candidates positive (by positivity) member
  have isRounded : roundTo 24 (candidate.value * 2 ^ 149) = units := by
    rw [toIeee_eq, ofExact_eq_finite_iff] at reads
    exact reads.2.1
  have valuePositive : 0 ≤ candidate.value := by
    rw [value]
    positivity
  obtain ⟨valueLeast, valueMost⟩ :=
    bounds_of_roundTo positive rounded fits valuePositive isRounded
  obtain ⟨read, isRead, near⟩ := exists_reading?_near
    ((fewer.trans digitsMost).trans_lt (by norm_num)) (by rwa [sameValue]) (by rwa [sameValue])
  by_cases same : roundTo 24 (magnitude .double read * 2 ^ 149) = units
  · exact readsAsItself_of_reading? isRead same fits
  -- What is read is rounded to other units, so the candidate lies close to an end.
  obtain ⟨limit, isEnd, between⟩ := exists_isEnd positive rounded fits (by positivity)
    (mul_nonneg magnitude_nonneg (by positivity)) isRounded same
  have close : |limit - candidate.value * 2 ^ 149| ≤ candidate.value * 2 ^ 149 / 2 ^ 51 := by
    rw [sameValue] at near
    rw [← sub_mul, abs_mul, abs_of_pos scale] at between
    calc
      |limit - candidate.value * 2 ^ 149| ≤
          |magnitude .double read - candidate.value| * 2 ^ 149 := between
      _ ≤ candidate.value / 2 ^ 51 * 2 ^ 149 := mul_le_mul_of_nonneg_right near scale.le
      _ = candidate.value * 2 ^ 149 / 2 ^ 51 := div_mul_eq_mul_div _ _ _
  have isCandidate : |candidate.value * 2 ^ 149 - units| ≤
      (10 : ℚ) ^ candidate.exponent * 2 ^ 149 := by
    have scaled : candidate.value * 2 ^ 149 - units =
        (candidate.value - units / (2 ^ 149 : ℕ)) * 2 ^ 149 := by
      rw [sub_mul, Nat.cast_pow, Nat.cast_ofNat, div_mul_cancel₀ _ scale.ne']
    rw [scaled, abs_mul, abs_of_pos scale]
    exact mul_le_mul_of_nonneg_right distance scale.le
  rcases eq_end_or_isHarmless isEnd isCandidate close with ⟨onEnd, digitsFew⟩ | harmless
  · rw [onEnd, ← sameValue] at isEnd
    have digitsSome : 0 < (shortest .single units).digits := by
      refine digits_pos ?_
      rw [sameValue]
      linarith only [valueLeast]
    obtain ⟨exact, isExact, same⟩ := exists_reading?_of_isEnd isEnd digitsSome
      (fewer.trans_lt digitsFew) (by rwa [sameValue])
    refine readsAsItself_of_reading? isExact ?_ fits
    rw [same, sameValue, isRounded]
  · rw [isHarmless, reads] at harmless
    exact harmless

end CodeAtlas.Decimal
