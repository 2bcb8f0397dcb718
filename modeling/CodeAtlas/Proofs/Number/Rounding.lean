import CodeAtlas.Number.Ieee
import Mathlib.Algebra.Order.Floor.Semifield
import Mathlib.Data.Rat.Floor
import Mathlib.Tactic.FieldSimp
import Mathlib.Tactic.Linarith
import Mathlib.Tactic.Positivity

/-!
# Rounding

A quotient is rounded as the rational number that it is.  The numbers that are rounded to a given
one lie in an interval around it, and every number inside that interval is rounded to it; how its
ends themselves are rounded is not needed anywhere.
-/

namespace CodeAtlas.Ieee

variable {precision units numerator denominator : ℕ} {value : ℚ}

/-! ## The nearest whole number -/

/-- The nearest natural number, a half going to the even one. -/
def nearest (value : ℚ) : ℕ :=
  let below := ⌊value⌋₊
  if value - below < 1 / 2 then below
  else if 1 / 2 < value - below then below + 1
  else if below % 2 = 0 then below else below + 1

theorem abs_nearest_sub_le (positive : 0 ≤ value) : |nearest value - value| ≤ 1 / 2 := by
  have least := Nat.floor_le positive
  have most := Nat.lt_floor_add_one value
  rw [nearest, abs_le]
  split
  next less => constructor <;> linarith
  next notLess =>
    split
    next more => push_cast; constructor <;> linarith
    next notMore =>
      split
      · constructor <;> linarith
      · push_cast; constructor <;> linarith

theorem nearest_eq_of_abs_lt (positive : 0 ≤ value) (close : |(units : ℚ) - value| < 1 / 2) :
    nearest value = units := by
  have near := abs_nearest_sub_le positive
  rw [abs_le] at near
  rw [abs_lt] at close
  have less : (nearest value : ℚ) < units + 1 := by linarith
  have more : (units : ℚ) < nearest value + 1 := by linarith
  have lessNat : nearest value < units + 1 := by exact_mod_cast less
  have moreNat : units < nearest value + 1 := by exact_mod_cast more
  omega

/-! ## Binades -/

/-- The number of binary places of a whole number that do not fit the precision. -/
def excess (precision number : ℕ) : ℕ := number.log2 + 1 - precision

/-- What is rounded is a number of at most so many significant bits. -/
def IsRounded (precision units : ℕ) : Prop := 2 ^ excess precision units ∣ units

/-- Numbers of one binade have the same excess. -/
theorem excess_floor_eq {places : ℕ} (some : 0 < precision) (positive : 0 ≤ value)
    (below : value < 2 ^ (precision + places))
    (above : places = 0 ∨ 2 ^ (precision + places - 1) ≤ value) :
    excess precision ⌊value⌋₊ = places := by
  have belowNat : ⌊value⌋₊ < 2 ^ (precision + places) := by
    rw [Nat.floor_lt positive]
    exact_mod_cast below
  by_cases zero : ⌊value⌋₊ = 0
  · rcases above with rfl | above
    · simp [excess, zero]
      omega
    · have one : (1 : ℚ) ≤ 2 ^ (precision + places - 1) := one_le_pow₀ (by norm_num)
      have floorOne : 1 ≤ ⌊value⌋₊ := Nat.le_floor (by push_cast; linarith)
      omega
  · have logLess := (Nat.log2_lt zero).mpr belowNat
    rcases above with rfl | above
    · rw [excess]
      omega
    · have aboveNat : 2 ^ (precision + places - 1) ≤ ⌊value⌋₊ :=
        Nat.le_floor (by exact_mod_cast above)
      have logMore := (Nat.le_log2 zero).mpr aboveNat
      rw [excess]
      omega

theorem lt_two_pow_excess (number : ℕ) : number < 2 ^ (precision + excess precision number) := by
  by_cases zero : number = 0
  · rw [zero]
    positivity
  · exact (Nat.log2_lt zero).mp (by rw [excess]; omega)

theorem two_pow_excess_le {number : ℕ} (some : 0 < precision) :
    excess precision number = 0 ∨ 2 ^ (precision + excess precision number - 1) ≤ number := by
  by_cases zero : number = 0
  · exact .inl (by rw [excess, zero, Nat.log2_zero]; omega)
  · by_cases fits : excess precision number = 0
    · exact .inl fits
    · refine .inr ((Nat.le_log2 zero).mp ?_)
      rw [excess] at fits ⊢
      omega

/-- The binade of a number that is not whole is that of its whole part. -/
theorem lt_two_pow_excess_floor (value : ℚ) :
    value < 2 ^ (precision + excess precision ⌊value⌋₊) := by
  have whole : ⌊value⌋₊ + 1 ≤ 2 ^ (precision + excess precision ⌊value⌋₊) :=
    lt_two_pow_excess ⌊value⌋₊
  calc
    value < (⌊value⌋₊ : ℚ) + 1 := Nat.lt_floor_add_one value
    _ ≤ 2 ^ (precision + excess precision ⌊value⌋₊) := by exact_mod_cast whole

theorem two_pow_excess_floor_le (some : 0 < precision) (positive : 0 ≤ value) :
    excess precision ⌊value⌋₊ = 0 ∨
      2 ^ (precision + excess precision ⌊value⌋₊ - 1) ≤ value := by
  rcases @two_pow_excess_le precision ⌊value⌋₊ some with fits | above
  · exact .inl fits
  · refine .inr (le_trans ?_ (Nat.floor_le positive))
    exact_mod_cast above

theorem excess_eq {number places : ℕ} (some : 0 < precision)
    (below : number < 2 ^ (precision + places))
    (above : places = 0 ∨ 2 ^ (precision + places - 1) ≤ number) :
    excess precision number = places := by
  have same := @excess_floor_eq precision (number : ℚ) places some (Nat.cast_nonneg number)
    (by exact_mod_cast below) (above.imp_right fun above => by exact_mod_cast above)
  rwa [Nat.floor_natCast] at same

/-! ## Rounding -/

/-- The number rounded to a whole number of at most `precision` significant bits. -/
def roundTo (precision : ℕ) (value : ℚ) : ℕ :=
  let step : ℕ := 2 ^ excess precision ⌊value⌋₊
  nearest (value / step) * step

theorem nearest_div {divisor : ℕ} (positive : 0 < divisor) :
    nearest ((numerator : ℚ) / divisor) =
      if 2 * (numerator % divisor) < divisor then numerator / divisor
      else if divisor < 2 * (numerator % divisor) then numerator / divisor + 1
      else if numerator / divisor % 2 = 0 then numerator / divisor
      else numerator / divisor + 1 := by
  have floor : ⌊(numerator / divisor : ℚ)⌋₊ = numerator / divisor :=
    Nat.floor_div_eq_div numerator divisor
  have some : (0 : ℚ) < divisor := by exact_mod_cast positive
  have parts : (divisor : ℚ) * (numerator / divisor : ℕ) + (numerator % divisor : ℕ) = numerator := by
    exact_mod_cast Nat.div_add_mod numerator divisor
  have rest : (numerator : ℚ) / divisor - (numerator / divisor : ℕ) =
      (numerator % divisor : ℕ) / divisor := by
    rw [← parts]
    field_simp
    ring
  have less : (numerator : ℚ) / divisor - (numerator / divisor : ℕ) < 1 / 2 ↔
      2 * (numerator % divisor) < divisor := by
    rw [rest, div_lt_div_iff₀ some (by norm_num)]
    norm_cast
    omega
  have more : 1 / 2 < (numerator : ℚ) / divisor - (numerator / divisor : ℕ) ↔
      divisor < 2 * (numerator % divisor) := by
    rw [rest, div_lt_div_iff₀ (by norm_num) some]
    norm_cast
    omega
  rw [nearest, floor]
  simp only [less, more]

theorem roundQuotient_eq (positive : 0 < denominator) :
    roundQuotient precision numerator denominator =
      roundTo precision (numerator / denominator) := by
  have floor : ⌊(numerator / denominator : ℚ)⌋₊ = numerator / denominator :=
    Nat.floor_div_eq_div numerator denominator
  have step : 0 < 2 ^ excess precision (numerator / denominator) := by positivity
  rw [roundQuotient, roundTo, floor]
  rw [div_div, ← Nat.cast_mul, nearest_div (Nat.mul_pos positive step)]
  rfl

/-- A rounded number is a significand of at most `precision` bits at the place of its binade. -/
theorem IsRounded.exists_significand (rounded : IsRounded precision units) :
    ∃ significand < 2 ^ precision, units = significand * 2 ^ excess precision units := by
  obtain ⟨significand, same⟩ := rounded
  refine ⟨significand, ?_, by rw [Nat.mul_comm]; exact same⟩
  have less : 2 ^ excess precision units * significand <
      2 ^ excess precision units * 2 ^ precision := by
    rw [← same, ← Nat.pow_add, Nat.add_comm]
    exact lt_two_pow_excess units
  exact Nat.lt_of_mul_lt_mul_left less

/-- What a number is rounded to, and how far that is from it. -/
theorem roundTo_spec (some : 0 < precision) (positive : 0 ≤ value) :
    ∃ significand : ℕ, significand ≤ 2 ^ precision ∧
      (excess precision ⌊value⌋₊ = 0 ∨ 2 ^ (precision - 1) ≤ significand) ∧
      roundTo precision value = significand * 2 ^ excess precision ⌊value⌋₊ ∧
      |(roundTo precision value : ℚ) - value| ≤ 2 ^ excess precision ⌊value⌋₊ / 2 := by
  have below := @lt_two_pow_excess_floor precision value
  have above := two_pow_excess_floor_le some positive
  rw [roundTo]
  generalize excess precision ⌊value⌋₊ = places at *
  have step : (0 : ℚ) < 2 ^ places := by positivity
  have near := abs_nearest_sub_le (div_nonneg positive step.le)
  push_cast
  refine ⟨nearest (value / 2 ^ places), ?_, ?_, rfl, ?_⟩
  · have scaled : value / 2 ^ places < 2 ^ precision := by
      rw [div_lt_iff₀ step, ← pow_add]
      exact below
    have less : (nearest (value / 2 ^ places) : ℚ) < 2 ^ precision + 1 := by
      linarith [(abs_le.mp near).2]
    exact Nat.lt_succ_iff.mp (by exact_mod_cast less)
  · refine above.imp_right fun above => ?_
    have scaled : 2 ^ (precision - 1) ≤ value / 2 ^ places := by
      rw [le_div_iff₀ step, ← pow_add]
      have place : precision - 1 + places = precision + places - 1 := by omega
      rwa [place]
    have more : (2 ^ (precision - 1) : ℚ) < nearest (value / 2 ^ places) + 1 := by
      linarith [(abs_le.mp near).1]
    exact Nat.lt_succ_iff.mp (by exact_mod_cast more)
  · have unscaled : (nearest (value / 2 ^ places) : ℚ) * 2 ^ places - value =
        (nearest (value / 2 ^ places) - value / 2 ^ places) * 2 ^ places := by
      field_simp
    rw [unscaled, abs_mul, abs_of_pos step]
    linarith [mul_le_mul_of_nonneg_right near step.le]

/-- Rounded units are of the binade of the number, or the first of the next one. -/
theorem roundTo_cases (some : 0 < precision) (positive : 0 ≤ value) :
    excess precision (roundTo precision value) = excess precision ⌊value⌋₊ ∧
        (∃ significand, roundTo precision value = significand * 2 ^ excess precision ⌊value⌋₊) ∨
      excess precision (roundTo precision value) = excess precision ⌊value⌋₊ + 1 ∧
        roundTo precision value = 2 ^ (precision + excess precision ⌊value⌋₊) := by
  obtain ⟨significand, most, least, isUnits, -⟩ := roundTo_spec some positive
  generalize excess precision ⌊value⌋₊ = places at *
  rcases Nat.lt_or_eq_of_le most with less | carried
  · refine .inl ⟨excess_eq some ?_ (least.imp_right fun least => ?_), significand, isUnits⟩
    · rw [isUnits, Nat.pow_add]
      exact Nat.mul_lt_mul_of_pos_right less (by positivity)
    · have place : precision + places - 1 = precision - 1 + places := by omega
      rw [isUnits, place, Nat.pow_add]
      exact Nat.mul_le_mul_right _ least
  · have power : roundTo precision value = 2 ^ (precision + places) := by
      rw [isUnits, carried, Nat.pow_add]
    refine .inr ⟨excess_eq some ?_ (.inr ?_), power⟩
    · rw [power]
      exact Nat.pow_lt_pow_right (by decide) (by omega)
    · rw [power]
      exact Nat.pow_le_pow_right (by decide) (by omega)

theorem isRounded_roundTo (some : 0 < precision) (positive : 0 ≤ value) :
    IsRounded precision (roundTo precision value) := by
  rcases roundTo_cases some positive with ⟨places, significand, isUnits⟩ | ⟨places, isUnits⟩
  · rw [IsRounded, places]
    exact ⟨significand, by rw [Nat.mul_comm]; exact isUnits⟩
  · rw [IsRounded, places, isUnits]
    exact Nat.pow_dvd_pow 2 (by omega)

/-- What lies below a power of two is not rounded beyond it. -/
theorem roundTo_le_two_pow {places : ℕ} (some : 0 < precision) (positive : 0 ≤ value)
    (enough : precision ≤ places) (less : value < 2 ^ places) :
    roundTo precision value ≤ 2 ^ places := by
  obtain ⟨significand, most, -, isUnits, -⟩ := roundTo_spec some positive
  have few : precision + excess precision ⌊value⌋₊ ≤ places := by
    rcases two_pow_excess_floor_le some positive with none | above
    · omega
    · have below : (2 : ℚ) ^ (precision + excess precision ⌊value⌋₊ - 1) < 2 ^ places :=
        above.trans_lt less
      have smaller := (pow_lt_pow_iff_right₀ (by norm_num)).mp below
      omega
  calc
    roundTo precision value = significand * 2 ^ excess precision ⌊value⌋₊ := isUnits
    _ ≤ 2 ^ precision * 2 ^ excess precision ⌊value⌋₊ := Nat.mul_le_mul_right _ most
    _ = 2 ^ (precision + excess precision ⌊value⌋₊) := (Nat.pow_add _ _ _).symm
    _ ≤ 2 ^ places := Nat.pow_le_pow_right (by decide) few

/-- A significand that fits is rounded at every place. -/
theorem isRounded_mul_two_pow {significand : ℕ} (some : 0 < precision)
    (fits : significand < 2 ^ precision) (places : ℕ) :
    IsRounded precision (significand * 2 ^ places) := by
  have few : excess precision (significand * 2 ^ places) ≤ places := by
    by_cases zero : significand * 2 ^ places = 0
    · rw [excess, zero, Nat.log2_zero]
      omega
    · have less : significand * 2 ^ places < 2 ^ (precision + places) := by
        rw [Nat.pow_add]
        exact Nat.mul_lt_mul_of_pos_right fits (by positivity)
      have log := (Nat.log2_lt zero).mpr less
      rw [excess]
      omega
  exact Dvd.dvd.mul_left (Nat.pow_dvd_pow 2 few) significand

/-- Rounding changes a number that fills its precision by a small part of it. -/
theorem abs_roundTo_sub_le (some : 0 < precision) (least : 2 ^ (precision - 1) ≤ value) :
    |(roundTo precision value : ℚ) - value| ≤ value / 2 ^ precision := by
  have positive : 0 ≤ value := le_trans (by positivity) least
  obtain ⟨-, -, -, -, near⟩ := roundTo_spec some positive
  refine near.trans ?_
  rw [div_le_div_iff₀ (by norm_num) (by positivity), ← pow_add]
  have step : excess precision ⌊value⌋₊ + precision =
      precision + excess precision ⌊value⌋₊ - 1 + 1 := by omega
  rw [step, pow_succ]
  rcases two_pow_excess_floor_le some positive with none | above
  · rw [none, Nat.add_zero]
    linarith
  · linarith

/-- The lower end of the interval of numbers that are rounded to given units.  Below a power of two
the rounded numbers lie twice as close. -/
def lowerEnd (precision units : ℕ) : ℚ :=
  if 0 < excess precision units ∧ units = 2 ^ (precision + excess precision units - 1) then
    units - 2 ^ excess precision units / 4
  else units - 2 ^ excess precision units / 2

/-- The upper end of that interval. -/
def upperEnd (precision units : ℕ) : ℚ := units + 2 ^ excess precision units / 2

theorem lowerEnd_le (precision units : ℕ) :
    lowerEnd precision units ≤ units - 2 ^ excess precision units / 4 := by
  have step : (0 : ℚ) < 2 ^ excess precision units := by positivity
  rw [lowerEnd]
  split <;> linarith

theorem le_lowerEnd (precision units : ℕ) :
    units - 2 ^ excess precision units / 2 ≤ lowerEnd precision units := by
  have step : (0 : ℚ) < 2 ^ excess precision units := by positivity
  rw [lowerEnd]
  split <;> linarith

/-- What is rounded to given units lies in their interval. -/
theorem mem_interval_of_roundTo (some : 0 < precision) (positive : 0 ≤ value)
    (same : roundTo precision value = units) :
    lowerEnd precision units ≤ value ∧ value ≤ upperEnd precision units := by
  obtain ⟨-, -, -, -, near⟩ := roundTo_spec some positive
  have above := two_pow_excess_floor_le some positive
  have binade := roundTo_cases some positive
  rw [same] at binade near
  obtain ⟨low, high⟩ := abs_le.mp near
  generalize excess precision ⌊value⌋₊ = places at *
  rcases binade with ⟨ownPlaces, -⟩ | ⟨ownPlaces, -⟩
  · rw [lowerEnd, upperEnd, ownPlaces]
    refine ⟨?_, by linarith⟩
    split
    next power =>
      -- The number is of the binade that its units begin.
      have notLess : (units : ℚ) ≤ value := by
        rcases above with none | above
        · omega
        · rw [power.2]
          exact_mod_cast above
      linarith
    next => linarith
  · have doubled : (2 : ℚ) ^ (places + 1) = 2 ^ places * 2 := pow_succ 2 places
    rw [upperEnd, ownPlaces, doubled]
    refine ⟨(lowerEnd_le precision units).trans ?_, by linarith⟩
    rw [ownPlaces, doubled]
    linarith

/-- A number of known binade is rounded to a multiple of its step that lies nearer than half of
it. -/
theorem roundTo_eq_of_abs_lt {places significand : ℕ} (some : 0 < precision)
    (positive : 0 ≤ value) (below : value < 2 ^ (precision + places))
    (above : places = 0 ∨ 2 ^ (precision + places - 1) ≤ value)
    (close : |(significand * 2 ^ places : ℚ) - value| < 2 ^ places / 2) :
    roundTo precision value = significand * 2 ^ places := by
  have step : (0 : ℚ) < 2 ^ places := by positivity
  rw [roundTo, excess_floor_eq some positive below above]
  push_cast
  rw [nearest_eq_of_abs_lt (div_nonneg positive step.le)]
  have scaled : (significand : ℚ) - value / 2 ^ places =
      (significand * 2 ^ places - value) / 2 ^ places := by
    field_simp
  rw [scaled, abs_div, abs_of_pos step, div_lt_iff₀ step]
  linarith

/-- A number above the lower end and in the binade below has units that begin their binade. -/
theorem eq_two_pow_of_lowerEnd_lt (some : 0 < precision) (rounded : IsRounded precision units)
    (below : lowerEnd precision units < value) (several : excess precision units ≠ 0)
    (less : value < 2 ^ (precision + excess precision units - 1)) :
    units = 2 ^ (precision + excess precision units - 1) := by
  obtain ⟨significand, -, isUnits⟩ := rounded.exists_significand
  have least := (@two_pow_excess_le precision units some).resolve_left several
  by_contra other
  rw [lowerEnd, if_neg fun power => other power.2] at below
  generalize excess precision units = places at *
  have begins : precision + places - 1 = precision - 1 + places := by omega
  rw [begins, Nat.pow_add] at other least
  rw [isUnits] at other least
  have more : 2 ^ (precision - 1) + 1 ≤ significand := by
    have notLess := Nat.le_of_mul_le_mul_right least (by positivity)
    exact Nat.lt_of_le_of_ne notLess fun same => other (by rw [same])
  have step : (0 : ℚ) < 2 ^ places := by positivity
  have far : (2 : ℚ) ^ (precision + places - 1) + 2 ^ places ≤ units := by
    have cast : (units : ℚ) = significand * 2 ^ places := by rw [isUnits]; push_cast; rfl
    rw [cast, begins, pow_add, ← add_one_mul]
    exact mul_le_mul_of_nonneg_right (by exact_mod_cast more) step.le
  linarith

/-- The last numbers of a binade are rounded to the beginning of the next one. -/
theorem roundTo_eq_two_pow {places : ℕ} (some : 0 < precision) (positive : 0 ≤ value)
    (less : value < 2 ^ (precision + places))
    (near : 2 ^ (precision + places) - 2 ^ places / 2 < value) :
    roundTo precision value = 2 ^ (precision + places) := by
  have product : (2 : ℚ) ^ (precision + places) = 2 ^ precision * 2 ^ places := pow_add 2 _ _
  have wide : (2 : ℚ) ≤ 2 ^ precision :=
    le_self_pow₀ (by norm_num) (Nat.pos_iff_ne_zero.mp some)
  have halved : (2 : ℚ) ^ (precision + places) = 2 ^ (precision + places - 1) * 2 := by
    rw [← pow_succ]
    congr 1
    omega
  have above : (2 : ℚ) ^ (precision + places - 1) ≤ value := by nlinarith
  have close : |(((2 ^ precision : ℕ) : ℚ) * 2 ^ places) - value| < 2 ^ places / 2 := by
    push_cast
    rw [← product, abs_lt]
    constructor <;> linarith
  rw [roundTo_eq_of_abs_lt some positive less (.inr above) close, Nat.pow_add]

/-- Everything inside the interval of rounded units is rounded to them. -/
theorem roundTo_eq_of_mem_interval (some : 0 < precision) (positive : 0 ≤ value)
    (rounded : IsRounded precision units) (below : lowerEnd precision units < value)
    (above : value < upperEnd precision units) : roundTo precision value = units := by
  by_cases sameBinade :
      excess precision units = 0 ∨ 2 ^ (precision + excess precision units - 1) ≤ value
  · obtain ⟨significand, less, isUnits⟩ := rounded.exists_significand
    have least := (le_lowerEnd precision units).trans_lt below
    rw [upperEnd] at above
    generalize excess precision units = places at *
    have step : (0 : ℚ) < 2 ^ places := by positivity
    have cast : (units : ℚ) = significand * 2 ^ places := by rw [isUnits]; push_cast; rfl
    have unitsMost : (units : ℚ) + 2 ^ places ≤ 2 ^ (precision + places) := by
      rw [cast, pow_add, ← add_one_mul]
      exact mul_le_mul_of_nonneg_right (by exact_mod_cast less) step.le
    rw [isUnits]
    refine roundTo_eq_of_abs_lt some positive (by linarith) sameBinade ?_
    rw [← cast, abs_lt]
    constructor <;> linarith
  · -- The number lies in the binade below, so its units begin theirs.
    push Not at sameBinade
    obtain ⟨several, less⟩ := sameBinade
    have begins := eq_two_pow_of_lowerEnd_lt some rounded below several less
    rw [lowerEnd, if_pos ⟨Nat.pos_of_ne_zero several, begins⟩] at below
    obtain ⟨fewer, isExcess⟩ : ∃ fewer, excess precision units = fewer + 1 :=
      ⟨excess precision units - 1, by omega⟩
    have place : precision + (fewer + 1) - 1 = precision + fewer := by omega
    rw [isExcess, place] at begins less
    rw [isExcess, pow_succ, begins] at below
    rw [begins]
    refine roundTo_eq_two_pow some positive less ?_
    push_cast at below
    linarith

/-- A rounded number is rounded to itself. -/
theorem roundTo_natCast (some : 0 < precision) (rounded : IsRounded precision units) :
    roundTo precision units = units := by
  have step : (0 : ℚ) < 2 ^ excess precision units := by positivity
  refine roundTo_eq_of_mem_interval some (Nat.cast_nonneg units) rounded
    ((lowerEnd_le precision units).trans_lt ?_) ?_
  · linarith
  · rw [upperEnd]
    linarith

end CodeAtlas.Ieee
