import CodeAtlas.Proofs.Number.Rounding
import CodeAtlas.Number.Decimal

/-!
# Arithmetic as rounding of exact results

Every operation gives the value nearest to its exact rational result.  With that, the error of a
few operations one after the other is an inequality between rational numbers.
-/

namespace CodeAtlas.Ieee

variable {format : Format} {negative first second : Bool} {units left right numerator denominator : ℕ}
  {value : ℚ}

/-- The rational number that so many units of a format are. -/
def magnitude (format : Format) (units : ℕ) : ℚ := units / 2 ^ format.scale

/-- The value of a format that is nearest to an exact number, with a sign. -/
def ofExact (format : Format) (negative : Bool) (value : ℚ) : Ieee format :=
  let units := roundTo format.precision (value * 2 ^ format.scale)
  if units < 2 ^ format.width then .finite negative units else .infinite negative

theorem magnitude_nonneg : 0 ≤ magnitude format units := by
  unfold magnitude
  positivity

theorem magnitude_mul_two_pow : magnitude format units * 2 ^ format.scale = units := by
  rw [magnitude]
  field_simp

theorem ofExact_eq_finite_iff {other : Bool} :
    ofExact format negative value = .finite other units ↔
      negative = other ∧ roundTo format.precision (value * 2 ^ format.scale) = units ∧
        units < 2 ^ format.width := by
  rw [ofExact]
  split
  next fits =>
    simp only [finite.injEq, and_congr_right_iff]
    rintro -
    constructor
    · rintro rfl
      exact ⟨rfl, fits⟩
    · exact fun same => same.1
  next tooLarge =>
    simp only [reduceCtorEq, false_iff]
    rintro ⟨-, rfl, fits⟩
    exact tooLarge fits

/-! ## Operations -/

theorem ofUnits_eq (positive : 0 < denominator) :
    ofUnits format negative numerator denominator =
      ofExact format negative (numerator / denominator / 2 ^ format.scale) := by
  have scaled : (numerator / denominator / 2 ^ format.scale : ℚ) * 2 ^ format.scale =
      numerator / denominator := by
    field_simp
  rw [ofUnits, ofExact, roundQuotient_eq positive, scaled]
  rfl

theorem ofRatio_eq (positive : 0 < denominator) :
    ofRatio format negative numerator denominator =
      ofExact format negative (numerator / denominator) := by
  rw [ofRatio, Nat.pow_eq, ofUnits_eq positive]
  congr 1
  push_cast
  field_simp

theorem ofNat_eq (number : ℕ) : ofNat format number = ofExact format false number := by
  rw [ofNat, ofRatio_eq Nat.one_pos, Nat.cast_one, div_one]

theorem ofDecimal_eq (digits : ℕ) (exponent : ℤ) :
    ofDecimal format negative digits exponent =
      ofExact format negative (digits * 10 ^ exponent) := by
  rw [ofDecimal]
  split
  next whole =>
    obtain ⟨places, rfl⟩ := Int.eq_ofNat_of_zero_le whole
    rw [ofRatio_eq Nat.one_pos, Nat.pow_eq]
    push_cast
    rw [div_one, zpow_natCast, Int.toNat_natCast]
  next fraction =>
    obtain ⟨places, rfl⟩ : ∃ places : ℕ, exponent = -places := ⟨exponent.natAbs, by omega⟩
    rw [Nat.pow_eq, ofRatio_eq (by positivity)]
    push_cast
    rw [Int.neg_neg, Int.toNat_natCast, zpow_neg, zpow_natCast, div_eq_mul_inv]

theorem finite_mul_finite :
    (finite first left * finite second right : Ieee format) =
      ofExact format (first != second) (magnitude format left * magnitude format right) := by
  change ofUnits format (first != second) (left * right) (2 ^ format.scale) = _
  rw [ofUnits_eq (by positivity), magnitude, magnitude]
  congr 1
  push_cast
  field_simp

theorem finite_div_finite (nonzero : right ≠ 0) :
    (finite first left / finite second right : Ieee format) =
      ofExact format (first != second) (magnitude format left / magnitude format right) := by
  change (if right = 0 then _ else
    ofUnits format (first != second) (left * 2 ^ format.scale) right) = _
  rw [if_neg nonzero, ofUnits_eq (Nat.pos_of_ne_zero nonzero), magnitude, magnitude]
  congr 1
  push_cast
  field_simp

theorem convert_finite (target : Format) :
    (finite negative units : Ieee format).convert target =
      ofExact target negative (magnitude format units) := by
  rw [convert, Nat.pow_eq, Nat.pow_eq, ofUnits_eq (by positivity), magnitude]
  congr 1
  push_cast
  field_simp

/-! ## Exact and nearly exact results -/

/-- A value of the format is its own nearest value. -/
theorem ofExact_eq_finite (some : 0 < format.precision)
    (rounded : IsRounded format.precision units) (fits : units < 2 ^ format.width)
    (same : value * 2 ^ format.scale = units) :
    ofExact format negative value = .finite negative units :=
  ofExact_eq_finite_iff.mpr ⟨rfl, by rw [same, roundTo_natCast some rounded], fits⟩

/-- The numbers that are values of a format. -/
def IsValue (format : Format) (value : ℚ) : Prop :=
  ∃ units, IsRounded format.precision units ∧ units < 2 ^ format.width ∧
    value * 2 ^ format.scale = units

theorem IsValue.exists_ofExact (some : 0 < format.precision) (isValue : IsValue format value)
    (negative : Bool) : ∃ units, ofExact format negative value = .finite negative units ∧
      magnitude format units = value := by
  obtain ⟨units, rounded, fits, same⟩ := isValue
  refine ⟨units, ofExact_eq_finite some rounded fits same, ?_⟩
  rw [magnitude, ← same]
  field_simp

/-- A significand of few bits at a place that the format has. -/
theorem isValue_of_significand {significand : ℕ} {place : ℤ} (some : 0 < format.precision)
    (few : significand < 2 ^ format.precision) (least : -(format.scale : ℤ) ≤ place)
    (same : value = significand * 2 ^ place)
    (fits : value * 2 ^ format.scale < 2 ^ format.width) : IsValue format value := by
  obtain ⟨places, isPlace⟩ := Int.eq_ofNat_of_zero_le (by omega : 0 ≤ place + format.scale)
  have scaled : value * 2 ^ format.scale = (significand * 2 ^ places : ℕ) := by
    rw [same, mul_assoc, ← zpow_natCast, ← zpow_add₀ (by norm_num), isPlace]
    push_cast
    rfl
  refine ⟨_, isRounded_mul_two_pow some few places, ?_, scaled⟩
  rw [scaled] at fits
  exact_mod_cast fits

/-- A number that is neither too small nor too large for the format is changed by a small part of
it. -/
theorem exists_ofExact_near (some : 0 < format.precision)
    (least : 2 ^ (format.precision - 1) ≤ value * 2 ^ format.scale)
    (most : (value + value / 2 ^ format.precision) * 2 ^ format.scale < 2 ^ format.width) :
    ∃ units, ofExact format negative value = .finite negative units ∧
      |magnitude format units - value| ≤ value / 2 ^ format.precision := by
  have near := abs_roundTo_sub_le some least
  have scale : (0 : ℚ) < 2 ^ format.scale := by positivity
  refine ⟨_, ofExact_eq_finite_iff.mpr ⟨rfl, rfl, ?_⟩, ?_⟩
  · have less : (roundTo format.precision (value * 2 ^ format.scale) : ℚ) < 2 ^ format.width := by
      rw [add_mul, div_mul_eq_mul_div] at most
      linarith [(abs_le.mp near).2]
    exact_mod_cast less
  · have scaled : magnitude format (roundTo format.precision (value * 2 ^ format.scale)) - value =
        (roundTo format.precision (value * 2 ^ format.scale) - value * 2 ^ format.scale) /
          2 ^ format.scale := by
      rw [magnitude]
      field_simp
    rw [scaled, abs_div, abs_of_pos scale, div_le_iff₀ scale]
    calc
      _ ≤ value * 2 ^ format.scale / 2 ^ format.precision := near
      _ = value / 2 ^ format.precision * 2 ^ format.scale := by ring

/-! ## Proper values -/

/-- A value of its format: finite units are rounded and not too large. -/
inductive IsProper : Ieee format → Prop
  | finite {negative : Bool} {units : ℕ} (rounded : IsRounded format.precision units)
      (fits : units < 2 ^ format.width) : IsProper (.finite negative units)
  | infinite (negative : Bool) : IsProper (.infinite negative)
  | notANumber (negative : Bool) : IsProper (.notANumber negative)

theorem isProper_ofExact (some : 0 < format.precision) (positive : 0 ≤ value) :
    (ofExact format negative value).IsProper := by
  rw [ofExact]
  split
  next fits => exact .finite (isRounded_roundTo some (by positivity)) fits
  next => exact .infinite _

theorem isProper_ofUnits (some : 0 < format.precision) (positive : 0 < denominator) :
    (ofUnits format negative numerator denominator).IsProper := by
  rw [ofUnits_eq positive]
  exact isProper_ofExact some (by positivity)

theorem IsProper.neg {number : Ieee format} (proper : number.IsProper) : number.neg.IsProper := by
  cases proper with
  | finite rounded fits => exact .finite rounded fits
  | infinite negative => exact .infinite _
  | notANumber negative => exact .notANumber _

theorem isProper_zero (negative : Bool) : (finite negative 0 : Ieee format).IsProper :=
  .finite (Nat.dvd_zero _) (by positivity)

theorem isProper_mul (some : 0 < format.precision) (first second : Ieee format) :
    (first * second).IsProper := by
  change (mul first second).IsProper
  unfold mul
  split
  all_goals first
    | exact .notANumber _
    | exact .infinite _
    | exact isProper_ofUnits some (by rw [Nat.pow_eq]; positivity)
    | skip
  all_goals
    split
    · exact .notANumber _
    · exact .infinite _

theorem isProper_div (some : 0 < format.precision) (first second : Ieee format) :
    (first / second).IsProper := by
  change (div first second).IsProper
  unfold div
  split
  all_goals first
    | exact .notANumber _
    | exact .infinite _
    | exact isProper_zero _
    | skip
  split
  · split
    · exact .notANumber _
    · exact .infinite _
  · next nonzero => exact isProper_ofUnits some (Nat.pos_of_ne_zero nonzero)

theorem isProper_ofNat (some : 0 < format.precision) (number : ℕ) :
    (ofNat format number).IsProper := by
  rw [ofNat_eq]
  exact isProper_ofExact some (Nat.cast_nonneg number)

theorem isProper_ofInt (some : 0 < format.precision) (number : ℤ) :
    (ofInt format number).IsProper :=
  isProper_ofUnits some Nat.one_pos

/-- What is converted to a format is a value of it. -/
theorem isProper_convert {target : Format} (some : 0 < target.precision) (number : Ieee format) :
    (number.convert target).IsProper := by
  cases number with
  | finite negative units => exact isProper_ofUnits some (by rw [Nat.pow_eq]; positivity)
  | infinite negative => exact .infinite _
  | notANumber negative => exact .notANumber _

end CodeAtlas.Ieee
