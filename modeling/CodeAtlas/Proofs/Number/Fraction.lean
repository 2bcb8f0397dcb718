import Mathlib.Data.Nat.Notation
import Mathlib.Tactic.LinearCombination
import Mathlib.Tactic.Linarith
import Mathlib.Tactic.Ring

/-!
# Fractions in a narrow window

Between two fractions whose cross products differ by one, every fraction has at least the sum of
their numerators and the sum of their denominators.  A chain of such fractions across a window
shows that no fraction of small parts lies inside it but those of the chain.
-/

namespace CodeAtlas

/-- A fraction of natural numbers; the bottom may be zero. -/
structure Fraction where
  top : ℕ
  bottom : ℕ
deriving DecidableEq

namespace Fraction

/-- The fraction of the sums. -/
def mediant (first second : Fraction) : Fraction :=
  ⟨first.top + second.top, first.bottom + second.bottom⟩

/-- Strictly smaller, by cross products. -/
def Less (first second : Fraction) : Prop :=
  first.top * second.bottom < second.top * first.bottom

instance (first second : Fraction) : Decidable (first.Less second) :=
  inferInstanceAs (Decidable (_ < _))

/-- Equal as numbers, by cross products. -/
def Same (first second : Fraction) : Prop :=
  first.top * second.bottom = second.top * first.bottom

/-- Neighbours: the cross products differ by one. -/
def isNext (first second : Fraction) : Bool :=
  second.top * first.bottom == first.top * second.bottom + 1

/-- Between neighbours every fraction has parts at least as large as their mediant. -/
theorem mediant_le_of_between {first second between : Fraction} (next : first.isNext second)
    (above : first.Less between) (below : between.Less second) :
    (first.mediant second).top ≤ between.top ∧ (first.mediant second).bottom ≤ between.bottom := by
  obtain ⟨p, q⟩ := first
  obtain ⟨r, s⟩ := second
  obtain ⟨m, g⟩ := between
  simp only [isNext, beq_iff_eq, Less, mediant] at next above below ⊢
  obtain ⟨more, moreIs⟩ := Nat.exists_eq_add_of_lt above
  obtain ⟨less, lessIs⟩ := Nat.exists_eq_add_of_lt below
  -- The fraction is a combination of the neighbours with positive weights.
  zify at next moreIs lessIs
  have top : (m : ℤ) = p * (less + 1) + r * (more + 1) := by
    linear_combination p * lessIs + r * moreIs - m * next
  have bottom : (g : ℤ) = q * (less + 1) + s * (more + 1) := by
    linear_combination q * lessIs + s * moreIs - g * next
  constructor
  · zify
    nlinarith [Int.mul_nonneg (Int.natCast_nonneg p) (Int.natCast_nonneg less),
      Int.mul_nonneg (Int.natCast_nonneg r) (Int.natCast_nonneg more)]
  · zify
    nlinarith [Int.mul_nonneg (Int.natCast_nonneg q) (Int.natCast_nonneg less),
      Int.mul_nonneg (Int.natCast_nonneg s) (Int.natCast_nonneg more)]

end Fraction

/-- The numbers from one fraction to another one of the same bottom, both included. -/
structure Window where
  low : ℕ
  high : ℕ
  bottom : ℕ

namespace Window

variable {window : Window} {first fraction : Fraction} {topLimit bottomLimit : ℕ}

/-- Below all numbers of the window. -/
def isBelow (window : Window) (fraction : Fraction) : Bool :=
  decide (fraction.Less ⟨window.low, window.bottom⟩)

/-- Above all numbers of the window. -/
def isAbove (window : Window) (fraction : Fraction) : Bool :=
  decide (Fraction.Less ⟨window.high, window.bottom⟩ fraction)

/-- Whether fractions, from the first on, leave no place for others of small parts up to the upper
end of the window, and those of them that lie inside it are accepted. -/
def separates (window : Window) (topLimit bottomLimit : ℕ) (accepted : Fraction → Bool)
    (first : Fraction) : List Fraction → Bool
  | [] => window.isAbove first
  | second :: rest =>
      first.isNext second &&
        (decide (topLimit ≤ (first.mediant second).top) ||
          decide (bottomLimit ≤ (first.mediant second).bottom)) &&
        (window.isAbove second || accepted second) &&
        window.separates topLimit bottomLimit accepted second rest

/-- What lies above the lower end lies above all that is below the window. -/
theorem less_of_isBelow (isBelow : window.isBelow first = true) (some : 0 < fraction.bottom)
    (above : window.low * fraction.bottom ≤ fraction.top * window.bottom) :
    first.Less fraction := by
  have less : first.top * window.bottom < window.low * first.bottom := of_decide_eq_true isBelow
  refine Nat.lt_of_mul_lt_mul_right (?_ : _ * window.bottom < _ * window.bottom)
  calc
    first.top * fraction.bottom * window.bottom =
        first.top * window.bottom * fraction.bottom := by ring
    _ < window.low * first.bottom * fraction.bottom := Nat.mul_lt_mul_of_pos_right less some
    _ = window.low * fraction.bottom * first.bottom := by ring
    _ ≤ fraction.top * window.bottom * first.bottom := Nat.mul_le_mul_right _ above
    _ = fraction.top * first.bottom * window.bottom := by ring

/-- What lies below the upper end lies below all that is above the window. -/
theorem less_of_isAbove (isAbove : window.isAbove first = true) (some : 0 < fraction.bottom)
    (below : fraction.top * window.bottom ≤ window.high * fraction.bottom) :
    fraction.Less first := by
  have less : window.high * first.bottom < first.top * window.bottom := of_decide_eq_true isAbove
  refine Nat.lt_of_mul_lt_mul_right (?_ : _ * window.bottom < _ * window.bottom)
  calc
    fraction.top * first.bottom * window.bottom =
        fraction.top * window.bottom * first.bottom := by ring
    _ ≤ window.high * fraction.bottom * first.bottom := Nat.mul_le_mul_right _ below
    _ = window.high * first.bottom * fraction.bottom := by ring
    _ < first.top * window.bottom * fraction.bottom := Nat.mul_lt_mul_of_pos_right less some
    _ = first.top * fraction.bottom * window.bottom := by ring

/-- A fraction of small parts inside a separated window is one of those accepted. -/
theorem exists_accepted {accepted : Fraction → Bool} {rest : List Fraction}
    (separated : window.separates topLimit bottomLimit accepted first rest = true)
    (topLess : fraction.top < topLimit) (bottomLess : fraction.bottom < bottomLimit)
    (some : 0 < fraction.bottom)
    (above : first.Less fraction)
    (below : fraction.top * window.bottom ≤ window.high * fraction.bottom) :
    ∃ member, accepted member = true ∧ member.Same fraction := by
  have notAbove {other : Fraction} (isAbove : window.isAbove other = true)
      (least : other.top * fraction.bottom ≤ fraction.top * other.bottom) : False :=
    Nat.not_lt.mpr least (less_of_isAbove isAbove some below)
  induction rest generalizing first with
  | nil => exact (notAbove separated above.le).elim
  | cons second rest induction =>
      simp only [separates, Bool.and_eq_true, Bool.or_eq_true, decide_eq_true_eq] at separated
      obtain ⟨⟨⟨next, beyond⟩, isAccepted⟩, others⟩ := separated
      rcases Nat.lt_trichotomy (second.top * fraction.bottom) (fraction.top * second.bottom) with
        less | same | more
      · exact induction others less
      · rcases isAccepted with isAbove | accept
        · exact (notAbove isAbove same.le).elim
        · exact ⟨second, accept, same⟩
      · obtain ⟨top, bottom⟩ := Fraction.mediant_le_of_between next above more
        omega

end Window

end CodeAtlas
