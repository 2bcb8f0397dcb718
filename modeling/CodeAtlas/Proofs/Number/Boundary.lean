import CodeAtlas.Proofs.Json.Literal
import CodeAtlas.Proofs.Number.Exact
import CodeAtlas.Proofs.Number.Fraction

/-!
# Decimals close to the end of an interval

A single-precision value is written with few digits, read in double precision and rounded once
more.  That can only go wrong when its decimal lies very close to an end of the interval of the
value, and not on it.  The ratio of the unit of the decimal to that of the end has a narrow window,
and only a few fractions of small parts lie in it.  For every unit and every place they are found
by a search whose result is checked: each is the ratio itself, or all its decimals are read well.
-/

namespace CodeAtlas

namespace Fraction

/-- Add another fraction some times. -/
def plus (first second : Fraction) (times : ℕ) : Fraction :=
  ⟨first.top + times * second.top, first.bottom + times * second.bottom⟩

/-- How many steps leave a gap open. -/
def stepsWithin (gap step : ℕ) : ℕ := (gap - 1) / step

end Fraction

namespace Window

open Fraction

/-- A fraction below the window, moved towards another one as far as it stays below. -/
def raise (window : Window) (first towards : Fraction) : Fraction :=
  first.plus towards (stepsWithin (window.low * first.bottom - first.top * window.bottom)
    (towards.top * window.bottom - window.low * towards.bottom))

/-- A fraction above the window, moved towards another one as far as it stays above. -/
def lower (window : Window) (second towards : Fraction) : Fraction :=
  second.plus towards (stepsWithin (second.top * window.bottom - window.high * second.bottom)
    (window.high * towards.bottom - towards.top * window.bottom))

/-- Neighbours on both sides of the window, brought together until their mediant lies in it or is
too large. -/
def narrow (window : Window) (topLimit bottomLimit : ℕ) : ℕ → Fraction → Fraction →
    Fraction × Fraction
  | 0, first, second => (first, second)
  | steps + 1, first, second =>
      let middle := first.mediant second
      if topLimit.ble middle.top || bottomLimit.ble middle.bottom then (first, second)
      else
        let raised := window.raise first second
        let lowered := window.lower second raised
        if raised.top.beq first.top && lowered.bottom.beq second.bottom then (first, second)
        else window.narrow topLimit bottomLimit steps raised lowered

/-- Fractions across the window, found without a proof that they separate it. -/
def chain (window : Window) (topLimit bottomLimit : ℕ) : Fraction × List Fraction :=
  let ends := window.narrow topLimit bottomLimit 64 ⟨0, 1⟩ ⟨1, 0⟩
  let middle := ends.1.mediant ends.2
  if topLimit.ble middle.top || bottomLimit.ble middle.bottom then (ends.1, [ends.2])
  else (window.raise ends.1 middle, [middle, window.lower ends.2 middle])

end Window

namespace Decimal

open JsonNumber Literal

/-- What the text of a decimal is read as. -/
def reading? (decimal : Decimal) : Option Binary64 :=
  scale? decimal.asRead.digits decimal.asRead.exponent

/-- Whether the text of so many single-precision units is read as them. -/
def readsAsItself (units : ℕ) : Bool :=
  (shortest .single units).reading?.any fun value => value.convert .single == .finite false units

/-- Whether the value nearest to a decimal is read as itself. -/
def isHarmless (decimal : Decimal) : Bool :=
  match decimal.toIeee .single false with
  | .finite _ units => readsAsItself units
  | _ => true

/-- The power of ten over the power of two at a place, as numerator and denominator.  The place is
counted from a quarter of the single-precision unit. -/
def unitRatio (exponent : ℤ) (place : ℕ) : ℕ × ℕ :=
  if 0 ≤ exponent then (10 ^ exponent.toNat * 2 ^ 151, 2 ^ place)
  else (2 ^ 151, 10 ^ (-exponent).toNat * 2 ^ place)

/-- The numbers within `2 ^ -51` of a ratio, relative to it. -/
def windowOf (top bottom : ℕ) : Window :=
  ⟨(2 ^ 51 - 1) * top, (2 ^ 51 + 1) * top, 2 ^ 51 * bottom⟩

/-- A reduced fraction that is the ratio itself, or such that all its decimals are harmless. -/
def isAccepted (top bottom : ℕ) (exponent : ℤ) (fraction : Fraction) : Bool :=
  fraction.top.gcd fraction.bottom == 1 &&
    (fraction.bottom * top == fraction.top * bottom ||
      (List.range (2 ^ 26 / fraction.bottom)).all fun times =>
        isHarmless ⟨(times + 1) * fraction.bottom, exponent⟩)

/-- Whether decimals of an exponent that come close to an end at a place are harmless or on it. -/
def isIsolated (exponent : ℤ) (place : ℕ) : Bool :=
  let (top, bottom) := unitRatio exponent place
  if 3 * bottom ≤ 4 * top ∧ 100 * top ≤ 101 * 2 ^ 25 * bottom then
    let window := windowOf top bottom
    let (first, rest) := window.chain (2 ^ 25) (2 ^ 26)
    window.isBelow first &&
      window.separates (2 ^ 25) (2 ^ 26) (isAccepted top bottom exponent) first rest
  else true

variable {exponent : ℤ} {place digits middle : ℕ}

theorem unitRatio_pos : 0 < (unitRatio exponent place).1 ∧ 0 < (unitRatio exponent place).2 := by
  rw [unitRatio]
  split <;> constructor <;> positivity

theorem unitRatio_eq :
    ((unitRatio exponent place).1 : ℚ) = 10 ^ exponent * 2 ^ 151 / 2 ^ place *
      (unitRatio exponent place).2 := by
  rw [unitRatio]
  split
  next whole =>
    obtain ⟨places, rfl⟩ := Int.eq_ofNat_of_zero_le whole
    push_cast
    rw [Int.toNat_natCast, zpow_natCast]
    field_simp
    norm_num
  next fraction =>
    obtain ⟨places, rfl⟩ : ∃ places : ℕ, exponent = -places := ⟨exponent.natAbs, by omega⟩
    push_cast
    rw [Int.neg_neg, Int.toNat_natCast, zpow_neg, zpow_natCast]
    field_simp
    norm_num

/-- What is accepted of the fractions equal to `middle / digits`. -/
theorem eq_or_isHarmless_of_isAccepted {top bottom : ℕ} {fraction : Fraction}
    (accepted : isAccepted top bottom exponent fraction = true) (some : 0 < digits)
    (few : digits < 2 ^ 26) (same : fraction.Same ⟨middle, digits⟩) :
    digits * top = middle * bottom ∨ isHarmless ⟨digits, exponent⟩ = true := by
  obtain ⟨up, down⟩ := fraction
  simp only [isAccepted, Bool.and_eq_true, Bool.or_eq_true, beq_iff_eq, List.all_eq_true,
    List.mem_range] at accepted
  obtain ⟨reduced, ratio | harmless⟩ := accepted
  · refine .inl (Nat.eq_of_mul_eq_mul_right (?_ : 0 < down) ?_)
    · refine Nat.pos_of_ne_zero ?_
      rintro rfl
      simp only [Nat.gcd_zero_right] at reduced
      simp only [Fraction.Same, reduced] at same
      omega
    · change up * digits = middle * down at same
      calc
        digits * top * down = digits * (down * top) := by ring
        _ = up * digits * bottom := by rw [ratio]; ring
        _ = middle * bottom * down := by rw [same]; ring
  · refine .inr ?_
    change up * digits = middle * down at same
    have divides : down ∣ digits :=
      (Nat.Coprime.symm reduced).dvd_of_dvd_mul_left ⟨middle, by rw [same, Nat.mul_comm]⟩
    obtain ⟨times, rfl⟩ := divides
    obtain ⟨before, rfl⟩ : ∃ before, times = before + 1 :=
      ⟨times - 1, by have := Nat.pos_of_mul_pos_left some; omega⟩
    have downSome : 0 < down := Nat.pos_of_mul_pos_right some
    have within : before + 1 ≤ 2 ^ 26 / down := by
      rw [Nat.le_div_iff_mul_le downSome, Nat.mul_comm]
      exact few.le
    rw [Nat.mul_comm]
    exact harmless before within

/-- The ratios of which a window is searched. -/
theorem inRange_of_ratio {top bottom : ℕ} {ratio : ℚ} (isTop : (top : ℚ) = ratio * bottom)
    (least : 3 / 4 ≤ ratio) (most : ratio ≤ 101 / 100 * 2 ^ 25) :
    3 * bottom ≤ 4 * top ∧ 100 * top ≤ 101 * 2 ^ 25 * bottom := by
  have bottomLeast : (0 : ℚ) ≤ bottom := Nat.cast_nonneg bottom
  constructor
  · have scaled := mul_le_mul_of_nonneg_right least bottomLeast
    rw [← isTop] at scaled
    have cleared : (3 : ℚ) * bottom ≤ 4 * top := by linarith
    exact_mod_cast cleared
  · have scaled := mul_le_mul_of_nonneg_right most bottomLeast
    rw [← isTop] at scaled
    have cleared : (100 : ℚ) * top ≤ 101 * 2 ^ 25 * bottom := by linarith
    exact_mod_cast cleared

/-- Where a decimal is close to an end, the fraction of the end over its digits lies in the
window. -/
theorem mem_windowOf_of_near {top bottom : ℕ} {ratio : ℚ} (isTop : (top : ℚ) = ratio * bottom)
    (near : |(middle : ℚ) - digits * ratio| ≤ digits * ratio / 2 ^ 51) :
    (windowOf top bottom).low * digits ≤ middle * (windowOf top bottom).bottom ∧
      middle * (windowOf top bottom).bottom ≤ (windowOf top bottom).high * digits := by
  have bottomLeast : (0 : ℚ) ≤ bottom := Nat.cast_nonneg bottom
  have product : (digits : ℚ) * ratio * bottom = digits * top := by rw [isTop]; ring
  obtain ⟨low, high⟩ := abs_le.mp near
  simp only [windowOf]
  constructor
  · have scaled := mul_le_mul_of_nonneg_right low bottomLeast
    rw [sub_mul, product, neg_mul, div_mul_eq_mul_div, product] at scaled
    have cleared : ((2 ^ 51 - 1 : ℕ) : ℚ) * top * digits ≤ middle * (2 ^ 51 * bottom) := by
      push_cast
      linarith
    exact_mod_cast cleared
  · have scaled := mul_le_mul_of_nonneg_right high bottomLeast
    rw [sub_mul, product, div_mul_eq_mul_div, product] at scaled
    have cleared : (middle : ℚ) * (2 ^ 51 * bottom) ≤ (2 ^ 51 + 1) * top * digits := by linarith
    exact_mod_cast cleared

/-- A decimal close to an end is on it or harmless. -/
theorem eq_or_isHarmless {ratio : ℚ} (isolated : isIsolated exponent place = true)
    (isRatio : ratio = 10 ^ exponent * 2 ^ 151 / 2 ^ place) (least : 3 / 4 ≤ ratio)
    (most : ratio ≤ 101 / 100 * 2 ^ 25) (some : 0 < digits) (few : digits < 2 ^ 26)
    (small : middle < 2 ^ 25)
    (near : |(middle : ℚ) - digits * ratio| ≤ digits * ratio / 2 ^ 51) :
    (middle : ℚ) = digits * ratio ∨ isHarmless ⟨digits, exponent⟩ = true := by
  obtain ⟨-, bottomSome⟩ := @unitRatio_pos exponent place
  have isTop := @unitRatio_eq exponent place
  rw [← isRatio] at isTop
  rw [isIsolated] at isolated
  generalize unitRatio exponent place = ratios at *
  obtain ⟨top, bottom⟩ := ratios
  simp only at bottomSome isTop isolated
  rw [if_pos (inRange_of_ratio isTop least most)] at isolated
  generalize (windowOf top bottom).chain (2 ^ 25) (2 ^ 26) = chain at isolated
  obtain ⟨first, rest⟩ := chain
  obtain ⟨below, separated⟩ := Bool.and_eq_true_iff.mp isolated
  obtain ⟨aboveLow, belowHigh⟩ := mem_windowOf_of_near isTop near
  have firstLess : first.Less ⟨middle, digits⟩ := Window.less_of_isBelow below some aboveLow
  obtain ⟨member, accepted, same⟩ :=
    Window.exists_accepted separated small few some firstLess belowHigh
  refine (eq_or_isHarmless_of_isAccepted accepted some few same).imp_left fun onEnd => ?_
  have bottomPositive : (0 : ℚ) < bottom := by exact_mod_cast bottomSome
  have cast : (digits : ℚ) * top = middle * bottom := by exact_mod_cast onEnd
  rw [isTop, ← mul_assoc] at cast
  exact (mul_right_cancel₀ bottomPositive.ne' cast).symm

/-! ## All exponents and places of single precision -/

/-- Twenty-one exponents from one on are isolated in all places. -/
def areIsolatedFrom (start : ℤ) : Bool :=
  (List.range 21).all fun count =>
    (List.range 254).all fun before => isIsolated (start + count) (before + 1)

-- One check of all exponents would keep the results of every step until its end.
theorem areIsolatedFrom_starts : ∀ start ∈ [-45, -24, -3, 18], areIsolatedFrom start = true := by
  simp only [List.forall_mem_cons, List.not_mem_nil, false_implies, implies_true, and_true]
  refine ⟨?tiny, ?small, ?middle, ?great⟩
  case tiny => decide +kernel
  case small => decide +kernel
  case middle => decide +kernel
  case great => decide +kernel

theorem isIsolated_of_areIsolatedFrom {start : ℤ} (all : areIsolatedFrom start = true)
    (least : start ≤ exponent) (most : exponent < start + 21) (some : 1 ≤ place)
    (few : place ≤ 254) : isIsolated exponent place = true := by
  simp only [areIsolatedFrom, List.all_eq_true, List.mem_range] at all
  have found := all (exponent - start).toNat (by omega) (place - 1) (by omega)
  rwa [Int.toNat_of_nonneg (by omega), add_sub_cancel, Nat.sub_add_cancel some] at found

theorem isIsolated_of_bounds (least : -45 ≤ exponent) (most : exponent ≤ 38) (some : 1 ≤ place)
    (few : place ≤ 254) : isIsolated exponent place = true := by
  obtain ⟨start, member, above, below⟩ :
      ∃ start ∈ [-45, -24, -3, 18], start ≤ exponent ∧ exponent < start + 21 := by
    simp only [List.exists_mem_cons_iff, List.not_mem_nil, false_and, exists_false, or_false]
    omega
  exact isIsolated_of_areIsolatedFrom (areIsolatedFrom_starts start member) above below some few

end Decimal

end CodeAtlas
