import CodeAtlas.Text.Digits
import Mathlib.Algebra.Group.Nat.Defs
import Mathlib.Data.List.Induction
import Mathlib.Data.List.TakeWhile

/-!
# Digits that are read back

The digits of a number stand for that number, also after zeros in front, and a reader that takes
the digits at the head of a text takes exactly those that were written there, if what follows does
not go on with a digit.
-/

namespace CodeAtlas.Text

variable {digits front back rest : List Char} {value width most : Nat}

/-- What does not begin with a digit. -/
def EndsDigits (rest : List Char) : Prop := ∀ c ∈ rest.head?, c.isDigit = false

@[simp] theorem endsDigits_nil : EndsDigits [] := by simp [EndsDigits]

@[simp] theorem endsDigits_cons {c : Char} : EndsDigits (c :: rest) ↔ c.isDigit = false := by
  simp [EndsDigits]

/-! ## Numbers -/

theorem natural_eq : natural digits = Nat.ofDigitChars 10 digits 0 := by
  rw [Nat.ofDigitChars_eq_foldl, natural]
  congr
  funext total digit
  rw [digitValue, Nat.mul_comm]

theorem natural_append :
    natural (front ++ back) = natural front * 10 ^ back.length + natural back := by
  rw [natural_eq, natural_eq, natural_eq, Nat.ofDigitChars_append,
    Nat.ofDigitChars_eq_ofDigitChars_zero, Nat.mul_comm]

theorem natural_replicate_zero {count : Nat} : natural (List.replicate count '0') = 0 := by
  rw [natural_eq, Nat.ofDigitChars_replicate_zero, Nat.mul_zero]

theorem natural_toDigits : natural (Nat.toDigits 10 value) = value := by
  rw [natural_eq, Nat.ofDigitChars_ten_toDigits]

theorem digitValue_lt {c : Char} (digit : c.isDigit = true) : digitValue c < 10 := by
  simp only [Char.isDigit, Bool.and_eq_true, decide_eq_true_eq, UInt32.le_iff_toNat_le] at digit
  have code : c.toNat = c.val.toNat := rfl
  have most : '9'.val.toNat = 57 := rfl
  have zero : '0'.toNat = 48 := rfl
  rw [digitValue, zero]
  omega

theorem natural_lt (all : ∀ c ∈ digits, c.isDigit = true) :
    natural digits < 10 ^ digits.length := by
  induction digits using List.reverseRecOn with
  | nil => simp [natural]
  | append_singleton front last induction =>
      have frontLess := induction fun c member => all c (List.mem_append_left _ member)
      have lastLess := digitValue_lt (all last (by simp))
      have single : natural [last] = digitValue last := by simp [natural]
      rw [natural_append, single, List.length_append, List.length_singleton, Nat.pow_add]
      omega

theorem isDigit_of_mem_toDigits {c : Char} (member : c ∈ Nat.toDigits 10 value) :
    c.isDigit = true :=
  Nat.isDigit_of_mem_toDigits (by decide) (by decide) member

theorem isDigit_of_mem_replicate {c : Char} {count : Nat}
    (member : c ∈ List.replicate count '0') : c.isDigit = true := by
  rw [(List.mem_replicate.mp member).2]
  rfl

/-! ## A fixed width -/

theorem natural_padded : natural (padded width value) = value := by
  rw [padded, natural_append, natural_replicate_zero, natural_toDigits, Nat.zero_mul, Nat.zero_add]

theorem isDigit_of_mem_padded {c : Char} (member : c ∈ padded width value) :
    c.isDigit = true := by
  rcases List.mem_append.mp member with zero | digit
  · exact isDigit_of_mem_replicate zero
  · exact isDigit_of_mem_toDigits digit

theorem length_padded (positive : 0 < width) (fits : value < 10 ^ width) :
    (padded width value).length = width := by
  have short := (Nat.length_toDigits_le_iff (by decide) positive).mpr fits
  rw [padded, List.length_append, List.length_replicate]
  omega

theorem padded_ne_nil : padded width value ≠ [] := by
  intro empty
  exact Nat.toDigits_ne_nil (List.append_eq_nil_iff.mp empty).2

/-! ## Digits at the head of a text -/

theorem takeWhile_isDigit (all : ∀ c ∈ digits, c.isDigit = true) (ends : EndsDigits rest) :
    (digits ++ rest).takeWhile Char.isDigit = digits := by
  rw [List.takeWhile_append_of_pos all]
  cases rest with
  | nil => simp
  | cons c rest =>
      rw [endsDigits_cons] at ends
      simp [ends]

theorem dropWhile_isDigit (all : ∀ c ∈ digits, c.isDigit = true) (ends : EndsDigits rest) :
    (digits ++ rest).dropWhile Char.isDigit = rest := by
  rw [List.dropWhile_append_of_pos all]
  cases rest with
  | nil => simp
  | cons c rest =>
      rw [endsDigits_cons] at ends
      simp [ends]

/-- Digits are taken as a whole when no more may be taken than there are. -/
theorem takeNatural?_append (all : ∀ c ∈ digits, c.isDigit = true) (some : digits ≠ [])
    (few : digits.length ≤ most) (ends : EndsDigits rest) :
    takeNatural? most (digits ++ rest) = .some (natural digits, rest) := by
  rw [takeNatural?, takeWhile_isDigit all ends, List.take_of_length_le few]
  simp [some]

/-- A number of a fixed width is taken as it was written. -/
theorem takeNatural?_padded (fits : value < 10 ^ width) (positive : 0 < width)
    (few : width ≤ most) (ends : EndsDigits rest) :
    takeNatural? most (padded width value ++ rest) = some (value, rest) := by
  have short : (padded width value).length ≤ most := (length_padded positive fits).trans_le few
  rw [takeNatural?_append (fun _ => isDigit_of_mem_padded) padded_ne_nil short ends,
    natural_padded]

end CodeAtlas.Text
