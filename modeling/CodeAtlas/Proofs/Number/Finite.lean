import CodeAtlas.Proofs.Number.ReadBack

/-!
# Texts of finite values

A double-precision value may be read back with another last bit, but it is never read as a number
beyond all finite ones.  Close to the greatest value that is checked value by value; below, the
error of reading is too small to matter.
-/

namespace CodeAtlas.Decimal

open Ieee JsonNumber Literal

variable {units : ℕ} {number : ℚ}

/-- Whether the text of so many double-precision units is read as a finite value. -/
def readsAsFinite (units : ℕ) : Bool :=
  (shortest .double units).reading?.any Ieee.isFinite

theorem readsAsFinite_of_reading? {read : ℕ}
    (isRead : (shortest .double units).reading? = some (.finite false read)) :
    readsAsFinite units = true :=
  (Option.any_eq_true _ _).mpr ⟨_, isRead, rfl⟩

theorem excess_double_le (fits : units < 2 ^ Format.double.width) : excess 53 units ≤ 2045 := by
  by_cases zero : units = 0
  · rw [zero, excess, Nat.log2_zero]
    omega
  · have log := (Nat.log2_lt zero).mpr fits
    simp only [Format.double] at log
    rw [excess]
    omega

/-! ## Close to the greatest value -/

/-- The greatest five values. -/
theorem all_readsAsFinite : (List.range 5).all (fun below =>
    readsAsFinite ((2 ^ 53 - 1 - below) * 2 ^ (971 + Format.double.scale))) = true := by
  decide +kernel

theorem readsAsFinite_of_significand {significand : ℕ} (great : 2 ^ 53 - 5 ≤ significand)
    (less : significand < 2 ^ 53) :
    readsAsFinite (significand * 2 ^ (971 + Format.double.scale)) = true := by
  have found := List.all_eq_true.mp all_readsAsFinite (2 ^ 53 - 1 - significand)
    (List.mem_range.mpr (by omega))
  rwa [show 2 ^ 53 - 1 - (2 ^ 53 - 1 - significand) = significand by omega] at found

theorem readsAsFinite_of_le (rounded : IsRounded 53 units) (fits : units < 2 ^ Format.double.width)
    (great : (2 ^ 53 - 5) * 2 ^ (971 + Format.double.scale) ≤ units) :
    readsAsFinite units = true := by
  have places : excess 53 units = 971 + Format.double.scale := by
    have width : Format.double.width = 53 + (971 + Format.double.scale) := rfl
    rw [width] at fits
    refine excess_eq (by decide) fits (.inr (le_trans ?_ great))
    rw [show 53 + (971 + Format.double.scale) - 1 = 52 + (971 + Format.double.scale) from rfl,
      Nat.pow_add 2 52]
    generalize 2 ^ (971 + Format.double.scale) = unit
    exact Nat.mul_le_mul_right unit (by decide)
  obtain ⟨significand, less, isUnits⟩ := rounded.exists_significand
  rw [places] at isUnits
  rw [isUnits] at great ⊢
  exact readsAsFinite_of_significand (Nat.le_of_mul_le_mul_right great (Nat.two_pow_pos _)) less

/-! ## Below -/

/-- Below the greatest values the error of reading does not reach the limit of all values. -/
theorem add_error_lt (most : number ≤ (2 ^ 53 - 5) * 2 ^ 971 + 2 ^ 970) :
    number + number / 2 ^ 51 < 2 ^ 1024 := by
  have limit : (2 : ℚ) ^ 1024 = 2 ^ 54 * 2 ^ 970 := by rw [← pow_add]
  have double : (2 : ℚ) ^ 971 = 2 * 2 ^ 970 := by rw [← pow_succ']
  have positive : (0 : ℚ) < 2 ^ 970 := by positivity
  rw [double] at most
  rw [limit]
  generalize (2 : ℚ) ^ 970 = unit at *
  norm_num only at most ⊢
  linarith only [most, positive]

/-- A whole decimal within the values is scaled by a power of ten that is one of them. -/
theorem exponent_le {digits : ℕ} {exponent : ℤ} (some : 0 < digits)
    (less : (digits * 10 ^ exponent : ℚ) < 2 ^ 1024) : exponent ≤ 308 := by
  have one : (1 : ℚ) ≤ digits := by exact_mod_cast some
  have powers : (2 ^ 1024 : ℚ) < 10 ^ (309 : ℤ) := by
    have natural : (2 : ℕ) ^ 1024 < 10 ^ 309 := by decide +kernel
    exact_mod_cast natural
  refine Int.lt_add_one_iff.mp ((zpow_lt_zpow_iff_right₀ (by norm_num : (1 : ℚ) < 10)).mp ?_)
  calc
    (10 : ℚ) ^ exponent ≤ digits * 10 ^ exponent := le_mul_of_one_le_left (by positivity) one
    _ < 2 ^ 1024 := less
    _ < 10 ^ (309 : ℤ) := powers

/-- A decimal that is rounded to units below the greatest ones is not too large itself. -/
theorem value_le_of_roundTo (positive : 0 ≤ number) (fits : units < 2 ^ Format.double.width)
    (isRounded : roundTo 53 (number * 2 ^ Format.double.scale) = units)
    (less : units < (2 ^ 53 - 5) * 2 ^ (971 + Format.double.scale)) :
    number ≤ (2 ^ 53 - 5) * 2 ^ 971 + 2 ^ 970 := by
  have scale : (0 : ℚ) < 2 ^ Format.double.scale := pow_pos (by norm_num) _
  have high := (mem_interval_of_roundTo (by decide) (mul_nonneg positive scale.le) isRounded).2
  have step : (2 : ℚ) ^ excess 53 units ≤ 2 ^ (971 + Format.double.scale) :=
    pow_le_pow_right₀ (by norm_num) (excess_double_le fits)
  have below : (units : ℚ) ≤ (2 ^ 53 - 5) * 2 ^ (971 + Format.double.scale) := by
    have cast : (units : ℚ) ≤ ((2 ^ 53 - 5) * 2 ^ (971 + Format.double.scale) : ℕ) :=
      Nat.cast_le.mpr less.le
    rwa [Nat.cast_mul, Nat.cast_sub (by norm_num), Nat.cast_pow, Nat.cast_pow, Nat.cast_ofNat,
      Nat.cast_ofNat] at cast
  rw [upperEnd] at high
  rw [pow_add] at step below
  have half : (2 : ℚ) ^ 971 = 2 * 2 ^ 970 := by rw [← pow_succ']
  refine le_of_mul_le_mul_right ?_ scale
  rw [half] at step below ⊢
  generalize (2 : ℚ) ^ 970 = unit at *
  generalize (2 : ℚ) ^ Format.double.scale = factor at *
  linarith

/-- A whole decimal of 64 bits below the limit is read as a finite value. -/
theorem exists_scale?_of_whole {digits : ℕ} {exponent : ℤ} (some : 0 < digits)
    (few : digits < 2 ^ 64) (whole : 0 ≤ exponent)
    (most : (digits * 10 ^ exponent : ℚ) ≤ (2 ^ 53 - 5) * 2 ^ 971 + 2 ^ 970) :
    ∃ units, scale? digits exponent = .some (.finite false units) := by
  have one : (1 : ℚ) ≤ digits * 10 ^ exponent :=
    one_le_mul_of_one_le_of_one_le (by exact_mod_cast some) (one_le_zpow₀ (by norm_num) whole)
  have positive := zero_le_one.trans one
  have large : (2 : ℚ) ≤ digits * 10 ^ exponent * 2 ^ 1000 := by
    have two : (2 : ℚ) ^ 1 ≤ 2 ^ 1000 := pow_le_pow_right₀ (by norm_num) (by decide)
    calc
      (2 : ℚ) = 1 * 2 ^ 1 := by norm_num
      _ ≤ digits * 10 ^ exponent * 2 ^ 1000 := mul_le_mul one two (by norm_num) positive
  have less := add_error_lt most
  have below : (digits * 10 ^ exponent : ℚ) < 2 ^ 1024 :=
    (le_add_of_nonneg_right (div_nonneg positive (by norm_num))).trans_lt less
  obtain ⟨found, isRead, -⟩ :=
    exists_scale?_near some few (by omega) (exponent_le some below) large less
  exact ⟨found, isRead⟩

/-- The text of a double-precision value is read as a finite value. -/
theorem readsAsFinite_of_isRounded (rounded : IsRounded 53 units)
    (fits : units < 2 ^ Format.double.width) : readsAsFinite units = true := by
  rcases Nat.eq_zero_or_pos units with rfl | positive
  · exact readsAsFinite_of_reading? (reading?_shortest_zero (by decide))
  obtain ⟨candidate, member, sameValue, fewer, reads⟩ :=
    @exists_candidate_of_shortest .double _ (by decide) (by decide) rounded fits positive
  have few : (shortest .double units).asRead.digits < 2 ^ 64 :=
    digits_asRead_lt ((fewer.trans
      (bounds_of_mem_candidates positive (by positivity) member).2).trans_lt (by norm_num))
  have isRounded : roundTo 53 (candidate.value * 2 ^ Format.double.scale) = units := by
    rw [toIeee_eq, ofExact_eq_finite_iff] at reads
    exact reads.2.1
  have valuePositive : 0 ≤ candidate.value := by
    rw [value]
    exact mul_nonneg (Nat.cast_nonneg _) (zpow_nonneg (by norm_num) _)
  rcases Nat.lt_or_ge units ((2 ^ 53 - 5) * 2 ^ (971 + Format.double.scale)) with less | great
  · have most := value_le_of_roundTo valuePositive fits isRounded less
    rw [← sameValue, ← value_asRead] at most isRounded
    have isReading : (shortest .double units).reading? =
        scale? (shortest .double units).asRead.digits (shortest .double units).asRead.exponent :=
      rfl
    generalize (shortest .double units).asRead = read at *
    rcases Int.lt_or_le read.exponent 0 with negative | whole
    · obtain ⟨found, isRead⟩ := exists_scale?_of_neg few negative
      exact readsAsFinite_of_reading? (isReading.trans isRead)
    · have some : 0 < read.digits := by
        refine Nat.pos_of_ne_zero fun none => positive.ne' ?_
        rw [← isRounded, value, none, Nat.cast_zero, zero_mul, zero_mul]
        exact_mod_cast @roundTo_natCast _ 0 (by decide) ⟨0, rfl⟩
      obtain ⟨found, isRead⟩ := exists_scale?_of_whole some few whole most
      exact readsAsFinite_of_reading? (isReading.trans isRead)
  · exact readsAsFinite_of_le rounded fits great

end CodeAtlas.Decimal
