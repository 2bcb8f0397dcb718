import CodeAtlas.Proofs.Number.Exact

/-!
# Shortest decimals are found

Among the decimals that are tried for a value of a format there is always one that reads back, so
the text of a value is never its exact expansion.  The decimal that is found lies within one unit
of its last digit from the value and has at most twenty digits.
-/

namespace CodeAtlas.Decimal

open Ieee

variable {format : Format} {decimal : Decimal} {numerator denominator units : ℕ} {exponent : ℤ}

/-- The rational number that a decimal writes. -/
def value (decimal : Decimal) : ℚ := decimal.digits * 10 ^ decimal.exponent

theorem digits_pos (positive : 0 < decimal.value) : 0 < decimal.digits := by
  refine Nat.pos_of_ne_zero fun zero => ?_
  rw [value, zero, Nat.cast_zero, zero_mul] at positive
  exact lt_irrefl _ positive

theorem toIeee_eq (negative : Bool) :
    decimal.toIeee format negative = ofExact format negative decimal.value :=
  ofDecimal_eq decimal.digits decimal.exponent

/-! ## Zeros at the end -/

theorem value_trimZeros (fuel : ℕ) (decimal : Decimal) :
    (trimZeros fuel decimal).value = decimal.value := by
  induction fuel generalizing decimal with
  | zero => rfl
  | succ fuel induction =>
      rw [trimZeros]
      split
      next ends =>
        have tenfold : (decimal.digits : ℚ) = (decimal.digits / 10 : ℕ) * 10 := by
          have whole : decimal.digits = decimal.digits / 10 * 10 := by omega
          exact_mod_cast whole
        rw [induction, value, value, tenfold, zpow_add_one₀ (by norm_num)]
        ring
      next => rfl

theorem digits_trimZeros_le (fuel : ℕ) (decimal : Decimal) :
    (trimZeros fuel decimal).digits ≤ decimal.digits := by
  induction fuel generalizing decimal with
  | zero => exact le_rfl
  | succ fuel induction =>
      rw [trimZeros]
      split
      next => exact (induction _).trans (Nat.div_le_self _ _)
      next => exact le_rfl

/-! ## Candidates -/

theorem mem_neighbours_iff (positive : 0 < denominator) :
    decimal ∈ neighbours numerator denominator exponent ↔
      decimal.exponent = exponent ∧
        (decimal.digits = ⌊(numerator / denominator / 10 ^ exponent : ℚ)⌋₊ ∨
          decimal.digits = ⌊(numerator / denominator / 10 ^ exponent : ℚ)⌋₊ + 1) := by
  have floor : ⌊(numerator / denominator / 10 ^ exponent : ℚ)⌋₊ =
      (if 0 ≤ exponent then numerator else numerator * Nat.pow 10 (-exponent).toNat) /
        (if 0 ≤ exponent then denominator * Nat.pow 10 exponent.toNat else denominator) := by
    rw [← Nat.floor_div_eq_div (K := ℚ), Nat.pow_eq, Nat.pow_eq]
    congr 1
    split
    next whole =>
      obtain ⟨places, rfl⟩ := Int.eq_ofNat_of_zero_le whole
      push_cast
      rw [Int.toNat_natCast, zpow_natCast, div_div]
    next fraction =>
      obtain ⟨places, rfl⟩ : ∃ places : ℕ, exponent = -places := ⟨exponent.natAbs, by omega⟩
      push_cast
      rw [Int.neg_neg, Int.toNat_natCast, zpow_neg, zpow_natCast]
      field_simp
  rw [floor, neighbours]
  obtain ⟨digits, place⟩ := decimal
  generalize (if 0 ≤ exponent then numerator else numerator * Nat.pow 10 (-exponent).toNat) = top
  generalize (if 0 ≤ exponent then denominator * Nat.pow 10 exponent.toNat
    else denominator) = bottom
  simp only
  split
  · simp only [List.mem_cons, Decimal.mk.injEq, List.not_mem_nil, or_false]
    tauto
  · simp only [List.mem_cons, Decimal.mk.injEq, List.not_mem_nil, or_false]
    tauto

theorem mem_candidates_iff :
    decimal ∈ candidates numerator denominator ↔
      ∃ count < 19, decimal ∈ neighbours numerator denominator
        (leadingExponent numerator denominator - (count : ℕ)) := by
  simp [candidates]

theorem digitCount_bounds {number : ℕ} (positive : 0 < number) :
    10 ^ digitCount number ≤ 10 * number ∧ number < 10 ^ digitCount number := by
  have length : 0 < digitCount number := Nat.length_toDigits_pos
  refine ⟨?_, (Nat.length_toDigits_le_iff (by decide) length).mp le_rfl⟩
  by_contra more
  have places : digitCount number = digitCount number - 1 + 1 := by omega
  rw [places, Nat.pow_succ] at more
  by_cases one : digitCount number - 1 = 0
  · rw [one] at more
    omega
  · have short := (Nat.length_toDigits_le_iff (b := 10) (by decide)
      (Nat.pos_of_ne_zero one)).mpr (by omega : number < 10 ^ (digitCount number - 1))
    rw [digitCount] at places short
    omega

/-- The leading exponent stands at the first digit or one place before it. -/
theorem leadingExponent_bounds (some : 0 < numerator) (positive : 0 < denominator) :
    (10 : ℚ) ^ leadingExponent numerator denominator < 10 * (numerator / denominator) ∧
      (numerator / denominator : ℚ) < 10 * 10 ^ leadingExponent numerator denominator := by
  obtain ⟨numeratorLeast, numeratorLess⟩ := digitCount_bounds some
  obtain ⟨denominatorLeast, denominatorLess⟩ := digitCount_bounds positive
  have bottom : (0 : ℚ) < denominator := by exact_mod_cast positive
  have split : (10 : ℚ) ^ leadingExponent numerator denominator =
      10 ^ digitCount numerator / 10 ^ digitCount denominator := by
    rw [leadingExponent, zpow_sub₀ (by norm_num), zpow_natCast, zpow_natCast]
  rw [split]
  constructor
  · rw [div_lt_iff₀ (by positivity)]
    calc
      (10 : ℚ) ^ digitCount numerator ≤ 10 * numerator := by exact_mod_cast numeratorLeast
      _ = 10 * (numerator / denominator) * denominator := by field_simp
      _ < 10 * (numerator / denominator) * 10 ^ digitCount denominator :=
        mul_lt_mul_of_pos_left (by exact_mod_cast denominatorLess) (by positivity)
  · rw [div_lt_iff₀ bottom]
    calc
      (numerator : ℚ) < 10 ^ digitCount numerator := by exact_mod_cast numeratorLess
      _ = 10 ^ digitCount numerator / 10 ^ digitCount denominator *
          10 ^ digitCount denominator := by field_simp
      _ ≤ 10 ^ digitCount numerator / 10 ^ digitCount denominator * (10 * denominator) :=
        mul_le_mul_of_nonneg_left (by exact_mod_cast denominatorLeast) (by positivity)
      _ = 10 * (10 ^ digitCount numerator / 10 ^ digitCount denominator) * denominator := by ring

/-- A candidate lies within one unit of its last digit, and has at most twenty digits. -/
theorem bounds_of_mem_candidates (some : 0 < numerator) (positive : 0 < denominator)
    (member : decimal ∈ candidates numerator denominator) :
    |decimal.value - numerator / denominator| ≤ 10 ^ decimal.exponent ∧
      decimal.digits ≤ 10 ^ 19 := by
  obtain ⟨count, few, neighbour⟩ := mem_candidates_iff.mp member
  obtain ⟨place, digits⟩ := (mem_neighbours_iff positive).mp neighbour
  have leading := (leadingExponent_bounds some positive).2
  have unit : (0 : ℚ) < 10 ^ decimal.exponent := zpow_pos (by norm_num) _
  have number : (0 : ℚ) ≤ numerator / denominator / 10 ^ decimal.exponent := by positivity
  rw [← place] at digits
  have least := Nat.floor_le number
  have most := Nat.lt_floor_add_one (numerator / denominator / 10 ^ decimal.exponent : ℚ)
  have scaled : (numerator / denominator : ℚ) =
      numerator / denominator / 10 ^ decimal.exponent * 10 ^ decimal.exponent := by field_simp
  constructor
  · have near : |(decimal.digits : ℚ) - numerator / denominator / 10 ^ decimal.exponent| ≤ 1 := by
      rw [abs_le]
      rcases digits with same | same
      · rw [same]
        constructor <;> linarith
      · rw [same]
        push_cast
        constructor <;> linarith
    rw [value, scaled, ← sub_mul, abs_mul, abs_of_pos unit]
    exact mul_le_of_le_one_left unit.le near
  · have limit : (numerator / denominator / 10 ^ decimal.exponent : ℚ) < 10 ^ 19 := by
      have lead : leadingExponent numerator denominator = decimal.exponent + count := by omega
      have fewPlaces : (10 : ℚ) ^ (count + 1) ≤ 10 ^ 19 :=
        pow_le_pow_right₀ (by norm_num) (by omega)
      rw [div_lt_iff₀ unit]
      calc
        (numerator / denominator : ℚ) < 10 * 10 ^ leadingExponent numerator denominator := leading
        _ = 10 ^ (count + 1) * 10 ^ decimal.exponent := by
          rw [lead, zpow_add₀ (by norm_num), zpow_natCast, pow_succ]
          ring
        _ ≤ 10 ^ 19 * 10 ^ decimal.exponent := mul_le_mul_of_nonneg_right fewPlaces unit.le
    have floorLess : ⌊(numerator / denominator / 10 ^ decimal.exponent : ℚ)⌋₊ < 10 ^ 19 :=
      (Nat.floor_lt number).mpr (by exact_mod_cast limit)
    omega

/-- The nearer one of two neighbours is at most half of its last unit away. -/
theorem exists_neighbour_near (numerator : ℕ) (exponent : ℤ) (positive : 0 < denominator) :
    ∃ neighbour ∈ neighbours numerator denominator exponent, neighbour.exponent = exponent ∧
      |neighbour.value - numerator / denominator| ≤ 10 ^ exponent / 2 := by
  have unit : (0 : ℚ) < 10 ^ exponent := zpow_pos (by norm_num) _
  have neighbour {digits : ℕ} := @mem_neighbours_iff ⟨digits, exponent⟩ numerator _ exponent positive
  have numberLeast : (0 : ℚ) ≤ numerator / denominator := by positivity
  generalize (numerator / denominator : ℚ) = number at *
  have least := Nat.floor_le (div_nonneg numberLeast unit.le)
  have most := Nat.lt_floor_add_one (number / 10 ^ exponent)
  have scaled : number = number / 10 ^ exponent * 10 ^ exponent := by field_simp
  have within {digits : ℕ} (close : |(digits : ℚ) - number / 10 ^ exponent| ≤ 1 / 2) :
      |(⟨digits, exponent⟩ : Decimal).value - number| ≤ 10 ^ exponent / 2 := by
    rw [value, scaled, ← sub_mul, abs_mul, abs_of_pos unit]
    linarith [mul_le_mul_of_nonneg_right close unit.le]
  by_cases half : number / 10 ^ exponent - ⌊number / 10 ^ exponent⌋₊ ≤ 1 / 2
  · refine ⟨⟨⌊number / 10 ^ exponent⌋₊, exponent⟩, neighbour.mpr ⟨rfl, .inl rfl⟩, rfl, within ?_⟩
    rw [abs_le]
    constructor <;> linarith
  · refine ⟨⟨⌊number / 10 ^ exponent⌋₊ + 1, exponent⟩, neighbour.mpr ⟨rfl, .inr rfl⟩, rfl,
      within ?_⟩
    push_cast
    rw [abs_le]
    constructor <;> linarith

/-- A decimal half a unit away from a value reads back as this value, if the unit is small enough
for 53 significant bits. -/
theorem toIeee_eq_of_near (some : 0 < format.precision) (few : format.precision ≤ 53)
    (rounded : IsRounded format.precision units) (fits : units < 2 ^ format.width)
    (near : |decimal.value - units / 2 ^ format.scale| ≤ 10 ^ decimal.exponent / 2)
    (small : (10 : ℚ) ^ decimal.exponent * 10 ^ 17 < units / 2 ^ format.scale) :
    decimal.toIeee format false = .finite false units := by
  rw [toIeee_eq, ofExact_eq_finite_iff]
  refine ⟨rfl, ?_, fits⟩
  have scale : (0 : ℚ) < 2 ^ format.scale := by positivity
  have isUnits : (units : ℚ) / 2 ^ format.scale * 2 ^ format.scale = units := by field_simp
  have unitsSmall : (units : ℚ) < 2 ^ 53 * 2 ^ excess format.precision units := by
    have less : units < 2 ^ (53 + excess format.precision units) :=
      (@lt_two_pow_excess format.precision units).trans_le
        (Nat.pow_le_pow_right (by decide) (by omega))
    rw [Nat.pow_add] at less
    exact_mod_cast less
  have close : |decimal.value * 2 ^ format.scale - units| <
      2 ^ excess format.precision units / 4 := by
    have scaled : decimal.value * 2 ^ format.scale - units =
        (decimal.value - units / 2 ^ format.scale) * 2 ^ format.scale := by
      rw [sub_mul, isUnits]
    rw [scaled, abs_mul, abs_of_pos scale]
    have nearUnits := mul_le_mul_of_nonneg_right near scale.le
    have smallUnits := mul_lt_mul_of_pos_right small scale
    rw [isUnits] at smallUnits
    linarith
  obtain ⟨low, high⟩ := abs_lt.mp close
  have least : 0 ≤ decimal.value :=
    mul_nonneg (Nat.cast_nonneg _) (zpow_pos (by norm_num) _).le
  refine roundTo_eq_of_mem_interval some (mul_nonneg least scale.le) rounded
    ((lowerEnd_le format.precision units).trans_lt ?_) ?_
  · linarith
  · rw [upperEnd]
    linarith

/-- Eighteen places after the leading one are enough for at most 53 significant bits. -/
theorem exists_candidate (some : 0 < format.precision) (few : format.precision ≤ 53)
    (rounded : IsRounded format.precision units) (fits : units < 2 ^ format.width)
    (positive : 0 < units) :
    ∃ candidate ∈ candidates units (2 ^ format.scale),
      candidate.toIeee format false = .finite false units := by
  have scale : 0 < 2 ^ format.scale := by positivity
  have leading := (leadingExponent_bounds positive scale).1
  obtain ⟨neighbour, member, last, near⟩ :=
    exists_neighbour_near units (leadingExponent units (2 ^ format.scale) - (18 : ℕ)) scale
  have split : leadingExponent units (2 ^ format.scale) = neighbour.exponent + (18 : ℕ) := by omega
  push_cast at leading near
  refine ⟨neighbour, mem_candidates_iff.mpr ⟨18, by decide, member⟩,
    toIeee_eq_of_near some few rounded fits ?_ ?_⟩
  · rw [last]
    exact near
  · rw [split, zpow_add₀ (by norm_num), zpow_natCast] at leading
    linarith

/-- What is known of the shortest decimal of a value: it reads back, and it is a candidate, but for
zeros at its end. -/
theorem exists_candidate_of_shortest (some : 0 < format.precision) (few : format.precision ≤ 53)
    (rounded : IsRounded format.precision units) (fits : units < 2 ^ format.width)
    (positive : 0 < units) :
    ∃ candidate ∈ candidates units (2 ^ format.scale),
      (shortest format units).value = candidate.value ∧
        (shortest format units).digits ≤ candidate.digits ∧
        candidate.toIeee format false = .finite false units := by
  obtain ⟨witness, witnessMember, witnessReads⟩ :=
    exists_candidate some few rounded fits positive
  rw [shortest, Nat.pow_eq]
  cases found : (candidates units (2 ^ format.scale)).find? fun candidate =>
      candidate.toIeee format false == .finite false units with
  | none =>
      have never := List.find?_eq_none.mp found witness witnessMember
      simp [witnessReads] at never
  | some candidate =>
      have reads : candidate.toIeee format false = .finite false units := by
        simpa using List.find?_some found
      refine ⟨candidate, List.mem_of_find?_eq_some found, ?_⟩
      simp only
      split
      · exact ⟨value_trimZeros _ _, digits_trimZeros_le _ _, reads⟩
      · exact ⟨rfl, le_rfl, reads⟩

/-! ## Zero -/

theorem neighbours_zero (positive : 0 < denominator) :
    neighbours 0 denominator exponent = [⟨0, exponent⟩, ⟨1, exponent⟩] := by
  have bottom : 0 < if 0 ≤ exponent then denominator * 10 ^ exponent.toNat else denominator := by
    split <;> positivity
  simp [neighbours, bottom]

/-- The first candidate for zero has no digits and is taken as it is. -/
theorem digits_shortest_zero (some : 0 < format.precision) : (shortest format 0).digits = 0 := by
  have isZero (place : ℤ) : (⟨0, place⟩ : Decimal).toIeee format false = .finite false 0 := by
    have rounded : roundTo format.precision 0 = 0 := by
      exact_mod_cast @roundTo_natCast _ 0 some ⟨0, rfl⟩
    rw [toIeee_eq, ofExact_eq_finite_iff, value, Nat.cast_zero, zero_mul, zero_mul]
    exact ⟨rfl, rounded, Nat.two_pow_pos _⟩
  have first : (candidates 0 (2 ^ format.scale)).find? (fun candidate =>
      candidate.toIeee format false == .finite false 0) =
      Option.some ⟨0, leadingExponent 0 (2 ^ format.scale)⟩ := by
    rw [candidates, List.range_succ_eq_map, List.flatMap_cons, neighbours_zero (by positivity)]
    simp [isZero]
  rw [shortest, Nat.pow_eq, first]
  simp [trimZeros]

end CodeAtlas.Decimal
