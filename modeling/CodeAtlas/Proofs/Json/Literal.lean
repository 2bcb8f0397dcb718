import CodeAtlas.Json.Number
import CodeAtlas.Number.Decimal
import CodeAtlas.Proofs.Text.Digits
import Mathlib.Tactic.Positivity
import Mathlib.Tactic.Ring

/-!
# Literals of written numbers

The text of a number keeps the grammar of literals.  Its parts are the digits that were written,
and as long as they fit 64 bits they are taken together as one significand.
-/

namespace CodeAtlas.JsonNumber.Literal

variable {whole digits rest : List Char} {value : Nat}

theorem natural_map_digitValue : natural (digits.map digitValue) = Text.natural digits := by
  rw [natural, List.foldl_map]
  rfl

/-! ## The grammar -/

/-- A digit is no sign. -/
theorem ne_of_isDigit {c other : Char} (digit : c.isDigit = true) (notDigit : other.isDigit = false) :
    c ≠ other := by
  rintro rfl
  simp [digit] at notDigit

theorem exists_digit_of_toDigits (value : Nat) :
    ∃ digit others, digit.isDigit = true ∧ Nat.toDigits 10 value = digit :: others := by
  obtain ⟨digit, others, same⟩ :=
    List.exists_cons_of_ne_nil (Nat.toDigits_ne_nil : Nat.toDigits 10 value ≠ [])
  exact ⟨digit, others, Text.isDigit_of_mem_toDigits (same ▸ List.mem_cons_self), same⟩

/-- The digits of a number other than zero do not begin with zero. -/
theorem head?_toDigits (nonzero : value ≠ 0) : (Nat.toDigits 10 value).head? ≠ some '0' := by
  intro zero
  obtain ⟨others, same⟩ := List.head?_eq_some_iff.mp zero
  have small : value < 10 ^ others.length := by
    have less := @Text.natural_lt others fun c member =>
      @Text.isDigit_of_mem_toDigits value c (same ▸ List.mem_cons_of_mem _ member)
    have whole : Text.natural ('0' :: others) = Text.natural others := by
      rw [← List.singleton_append, Text.natural_append]
      simp [Text.natural, Text.digitValue]
    rwa [← whole, ← same, Text.natural_toDigits] at less
  cases others with
  | nil =>
      rw [List.length_nil, Nat.pow_zero] at small
      omega
  | cons next rest =>
      have short := (Nat.length_toDigits_le_iff (by decide) (by simp)).mpr small
      rw [same, List.length_cons] at short
      omega

/-- The exponent that is written after its mark. -/
theorem exponent?_integerCharacters (exponent : Int) :
    exponent? (Decimal.integerCharacters exponent) = some exponent := by
  have unsigned : ¬((Nat.toDigits 10 exponent.natAbs).isEmpty ||
      !(Nat.toDigits 10 exponent.natAbs).all Char.isDigit) = true := by
    have all : ∀ c ∈ Nat.toDigits 10 exponent.natAbs, c.isDigit = true :=
      fun _ => Text.isDigit_of_mem_toDigits
    simpa [Nat.toDigits_ne_nil] using all
  have value : natural ((Nat.toDigits 10 exponent.natAbs).map digitValue) = exponent.natAbs := by
    rw [natural_map_digitValue, Text.natural_toDigits]
  rw [Decimal.integerCharacters]
  split
  next negative =>
    simp only [exponent?, if_neg unsigned, value]
    exact congrArg some (by omega : -(exponent.natAbs : Int) = exponent)
  next notNegative =>
    obtain ⟨digit, others, isDigit, same⟩ := exists_digit_of_toDigits exponent.natAbs
    have notPlus := ne_of_isDigit isDigit (by rfl : '+'.isDigit = false)
    have notMinus := ne_of_isDigit isDigit (by rfl : '-'.isDigit = false)
    unfold exponent?
    split
    next sign => exact absurd (List.cons.inj (same.symm.trans sign)).1 notPlus
    next sign => exact absurd (List.cons.inj (same.symm.trans sign)).1 notMinus
    next =>
      simp only [if_neg unsigned, value, Option.map_some, Option.some.injEq, Int.ofNat_eq_natCast]
      omega

/-- The point and the digits after it. -/
def fractionText : Option (List Char) → List Char
  | some digits => '.' :: digits
  | none => []

/-- The mark of an exponent and the exponent. -/
def exponentText : Option Int → List Char
  | some exponent => 'e' :: Decimal.integerCharacters exponent
  | none => []

/-- The sign, the digits, the fraction and the exponent of a literal. -/
def written (negative : Bool) (whole : List Char) (fraction : Option (List Char))
    (exponent : Option Int) : List Char :=
  (if negative then ['-'] else []) ++ (whole ++ (fractionText fraction ++ exponentText exponent))

theorem endsDigits_exponentText (exponent : Option Int) :
    Text.EndsDigits (exponentText exponent) := by
  cases exponent with
  | none => exact Text.endsDigits_nil
  | some value => exact Text.endsDigits_cons.mpr rfl

/-- The parts of a written literal are read back. -/
theorem ofCharacters?_written (negative : Bool) {fraction : Option (List Char)}
    (exponent : Option Int) (wholeDigits : ∀ c ∈ whole, c.isDigit = true) (some : whole ≠ [])
    (noZero : 1 < whole.length → whole.head? ≠ .some '0')
    (fractionDigits : ∀ digits ∈ fraction, digits ≠ [] ∧ ∀ c ∈ digits, c.isDigit = true) :
    ofCharacters? (written negative whole fraction exponent) =
      .some ⟨negative, whole.map digitValue, fraction.map (·.map digitValue), exponent⟩ := by
  have afterWhole : Text.EndsDigits (fractionText fraction ++ exponentText exponent) := by
    cases fraction with
    | none => exact endsDigits_exponentText exponent
    | some digits => exact Text.endsDigits_cons.mpr rfl
  have proper : (whole.isEmpty || whole.length > 1 && whole.head? == .some '0') = false := by
    simpa [some] using noZero
  have takeWhole := Text.takeWhile_isDigit wholeDigits afterWhole
  have dropWhole := Text.dropWhile_isDigit wholeDigits afterWhole
  have noSign (others : List Char) :
      whole ++ (fractionText fraction ++ exponentText exponent) ≠ '-' :: others := by
    obtain ⟨digit, front, rfl⟩ := List.exists_cons_of_ne_nil some
    intro same
    exact ne_of_isDigit (wholeDigits digit List.mem_cons_self) (by rfl : '-'.isDigit = false)
      (List.cons.inj same).1
  unfold ofCharacters? written
  cases negative
  all_goals
    simp only [List.singleton_append, List.nil_append, takeWhole, dropWhole, proper,
      Bool.false_eq_true, ↓reduceIte]
    cases fraction with
    | none =>
        cases exponent with
        | none => rfl
        | some value => simp [fractionText, exponentText, exponent?_integerCharacters]
    | some digits =>
        obtain ⟨nonempty, all⟩ := fractionDigits digits rfl
        simp only [fractionText, List.cons_append, List.isEmpty_iff, nonempty, ↓reduceIte,
          Text.takeWhile_isDigit all (endsDigits_exponentText exponent),
          Text.dropWhile_isDigit all (endsDigits_exponentText exponent)]
        cases exponent with
        | none => rfl
        | some value => simp [exponentText, exponent?_integerCharacters]

/-! ## Values -/

theorem natural_cons (digit : Nat) (digits : List Nat) :
    natural (digit :: digits) = digit * 10 ^ digits.length + natural digits := by
  have generalized (total : Nat) : digits.foldl (fun total digit => total * 10 + digit) total =
      total * 10 ^ digits.length + natural digits := by
    induction digits generalizing total with
    | nil => simp [natural]
    | cons next rest induction =>
        have first := induction (total * 10 + next)
        have second := induction next
        simp only [natural, List.foldl_cons, List.length_cons, Nat.pow_succ, Nat.zero_mul,
          Nat.zero_add] at first second ⊢
        rw [first, second]
        ring
  rw [natural, List.foldl_cons, Nat.zero_mul, Nat.zero_add, generalized]

/-- Digits before the point are all taken as long as they fit 64 bits. -/
theorem foldl_wholeDigit {digits : List Nat} {significand : Nat} {exponent : Int}
    (fits : significand * 10 ^ digits.length + natural digits < 2 ^ 64) :
    digits.foldl Scaled.wholeDigit ⟨significand, exponent, false⟩ =
      ⟨significand * 10 ^ digits.length + natural digits, exponent, false⟩ := by
  induction digits generalizing significand with
  | nil => simp [natural]
  | cons digit rest induction =>
      have total : significand * 10 ^ (digit :: rest).length + natural (digit :: rest) =
          (significand * 10 + digit) * 10 ^ rest.length + natural rest := by
        rw [natural_cons, List.length_cons]
        ring
      rw [total] at fits ⊢
      have next : ¬Nat.pow 2 64 ≤ significand * 10 + digit :=
        Nat.not_le.mpr (lt_of_le_of_lt
          (Nat.le_trans (Nat.le_mul_of_pos_right _ (by positivity)) (Nat.le_add_right _ _)) fits)
      rw [List.foldl_cons, ← induction fits]
      simp [Scaled.wholeDigit, next]

/-- Digits after the point are all taken as long as they fit 64 bits. -/
theorem foldl_fractionDigit {digits : List Nat} {significand : Nat} {exponent : Int}
    (fits : significand * 10 ^ digits.length + natural digits < 2 ^ 64) :
    digits.foldl Scaled.fractionDigit ⟨significand, exponent, false⟩ =
      ⟨significand * 10 ^ digits.length + natural digits, exponent - digits.length, false⟩ := by
  induction digits generalizing significand exponent with
  | nil => simp [natural]
  | cons digit rest induction =>
      have total : significand * 10 ^ (digit :: rest).length + natural (digit :: rest) =
          (significand * 10 + digit) * 10 ^ rest.length + natural rest := by
        rw [natural_cons, List.length_cons]
        ring
      rw [total] at fits ⊢
      have next : ¬Nat.pow 2 64 ≤ significand * 10 + digit :=
        Nat.not_le.mpr (lt_of_le_of_lt
          (Nat.le_trans (Nat.le_mul_of_pos_right _ (by positivity)) (Nat.le_add_right _ _)) fits)
      have places : exponent - (digit :: rest).length = exponent - 1 - rest.length := by
        rw [List.length_cons]
        omega
      rw [List.foldl_cons, places, ← induction fits]
      simp [Scaled.fractionDigit, next]

theorem natural_append (front back : List Nat) :
    natural (front ++ back) = natural front * 10 ^ back.length + natural back := by
  induction front with
  | nil => simp [natural]
  | cons digit rest induction =>
      rw [List.cons_append, natural_cons, natural_cons, induction, List.length_append, Nat.pow_add]
      ring

/-- The value of a literal with a point or an exponent whose digits fit 64 bits. -/
theorem value?_eq {literal : Literal}
    (notWhole : literal.fraction.isSome = true ∨ literal.exponent.isSome = true)
    (fits : natural (literal.whole ++ literal.fraction.getD []) < 2 ^ 64) :
    literal.value? = (scale? (natural (literal.whole ++ literal.fraction.getD []))
      (literal.exponent.getD 0 - (literal.fraction.getD []).length)).map fun value =>
        .double (if literal.negative then -value else value) := by
  have fraction : (literal.fraction.isNone && literal.exponent.isNone) = false := by
    rcases notWhole with some | some
    · rw [Option.isNone_eq_false_iff.mpr some, Bool.false_and]
    · rw [Option.isNone_eq_false_iff.mpr some, Bool.and_false]
  rw [natural_append] at fits ⊢
  have wholeFits : 0 * 10 ^ literal.whole.length + natural literal.whole < 2 ^ 64 := by
    rw [Nat.zero_mul, Nat.zero_add]
    exact lt_of_le_of_lt
      (Nat.le_trans (Nat.le_mul_of_pos_right _ (by positivity)) (Nat.le_add_right _ _)) fits
  rw [value?]
  simp only [fraction, Bool.false_and, Bool.false_eq_true, ↓reduceIte, foldl_wholeDigit wholeFits]
  simp only [Nat.zero_mul, Nat.zero_add, foldl_fractionDigit fits]
  congr 2
  omega

end CodeAtlas.JsonNumber.Literal

namespace CodeAtlas.Decimal

open JsonNumber Literal

/-- A decimal by the digits that are written of it: those of a whole one go on to one place
after the point. -/
def asRead (decimal : Decimal) : Decimal :=
  if decimal.digits = 0 then ⟨0, -1⟩
  else if 0 ≤ decimal.exponent ∧
      ((Nat.toDigits 10 decimal.digits).length : Int) + decimal.exponent ≤ 16 then
    ⟨decimal.digits * 10 ^ (decimal.exponent.toNat + 1), -1⟩
  else decimal

/-- Characters are read as a literal with a point or an exponent whose digits and their place are
those of a decimal. -/
structure IsReadAs (characters : List Char) (negative : Bool) (decimal : Decimal)
    (literal : Literal) : Prop where
  read : ofCharacters? characters = some literal
  sign : literal.negative = negative
  notWhole : literal.fraction.isSome = true ∨ literal.exponent.isSome = true
  digits : natural (literal.whole ++ literal.fraction.getD []) = decimal.digits
  place : literal.exponent.getD 0 - (literal.fraction.getD []).length = decimal.exponent

theorem exists_isReadAs {negative : Bool} {decimal : Decimal} {whole : List Char}
    {fraction : Option (List Char)} {exponent : Option Int}
    (wholeDigits : ∀ c ∈ whole, c.isDigit = true) (nonempty : whole ≠ [])
    (noZero : 1 < whole.length → whole.head? ≠ some '0')
    (fractionDigits : ∀ digits ∈ fraction, digits ≠ [] ∧ ∀ c ∈ digits, c.isDigit = true)
    (notWhole : fraction.isSome = true ∨ exponent.isSome = true)
    (digits : Text.natural (whole ++ fraction.getD []) = decimal.digits)
    (place : exponent.getD 0 - (fraction.getD []).length = decimal.exponent) :
    ∃ literal, IsReadAs (written negative whole fraction exponent) negative decimal literal := by
  refine ⟨_, ofCharacters?_written negative exponent wholeDigits nonempty noZero fractionDigits,
    rfl, by simpa using notWhole, ?_, ?_⟩
  · rw [← digits, ← natural_map_digitValue, List.map_append]
    cases fraction <;> rfl
  · rw [← place]
    cases fraction <;> simp

/-! ## The layouts of a text -/

section Layouts

variable {decimal : Decimal} {digits : List Char} (negative : Bool)

theorem isDigit_zeroText : ∀ c ∈ ['0'], c.isDigit = true := by simp

/-- A lone zero after the point. -/
theorem isDigits_tenth :
    ∀ others ∈ some ['0'], others ≠ [] ∧ ∀ c ∈ others, c.isDigit = true := by
  rintro _ ⟨⟩
  exact ⟨by decide, isDigit_zeroText⟩

theorem exists_isReadAs_zero :
    ∃ literal, IsReadAs (written negative ['0'] (some ['0']) none) negative ⟨0, -1⟩ literal :=
  exists_isReadAs isDigit_zeroText (by decide) (by decide) isDigits_tenth (.inl rfl) rfl rfl

/-- The digits of a whole decimal, zeros up to the point and one after it. -/
theorem exists_isReadAs_whole (zeros : Nat) (areDigits : ∀ c ∈ digits, c.isDigit = true)
    (nonempty : digits ≠ []) (noZero : digits.head? ≠ some '0') :
    ∃ literal, IsReadAs
      (written negative (digits ++ List.replicate zeros '0') (some ['0']) none) negative
      ⟨Text.natural digits * 10 ^ (zeros + 1), -1⟩ literal := by
  refine exists_isReadAs ?allDigits (by simp [nonempty]) ?noZero isDigits_tenth (.inl rfl) ?value
    rfl
  case allDigits =>
    intro c member
    rcases List.mem_append.mp member with digit | zero
    · exact areDigits c digit
    · exact Text.isDigit_of_mem_replicate zero
  case noZero =>
    intro _
    rwa [List.head?_append_of_ne_nil _ nonempty]
  case value =>
    rw [Option.getD_some, List.append_assoc, ← List.replicate_succ', Text.natural_append,
      Text.natural_replicate_zero, List.length_replicate, Nat.add_zero]

/-- A point among the digits. -/
theorem exists_isReadAs_parted (point : Nat) (areDigits : ∀ c ∈ digits, c.isDigit = true)
    (value : Text.natural digits = decimal.digits) (noZero : digits.head? ≠ some '0')
    (some : 0 < point) (inside : point < digits.length)
    (place : (point : Int) - digits.length = decimal.exponent) :
    ∃ literal, IsReadAs (written negative (digits.take point) (.some (digits.drop point)) none)
      negative decimal literal := by
  refine exists_isReadAs (fun c member => areDigits c (List.mem_of_mem_take member)) ?nonempty
    ?noZero ?after (.inl rfl) (by simpa using value) ?place
  case nonempty =>
    rw [ne_eq, List.take_eq_nil_iff, not_or]
    exact ⟨some.ne', List.ne_nil_of_length_pos (some.trans inside)⟩
  case noZero =>
    intro _
    rwa [List.head?_take, if_neg some.ne']
  case after =>
    rintro _ ⟨⟩
    refine ⟨?_, fun c member => areDigits c (List.mem_of_mem_drop member)⟩
    rw [ne_eq, List.drop_eq_nil_iff]
    omega
  case place =>
    rw [Option.getD_none, Option.getD_some, List.length_drop]
    omega

/-- A point before all digits, and zeros between. -/
theorem exists_isReadAs_below (gap : Nat) (areDigits : ∀ c ∈ digits, c.isDigit = true)
    (value : Text.natural digits = decimal.digits) (nonempty : digits ≠ [])
    (place : -((gap + digits.length : Nat) : Int) = decimal.exponent) :
    ∃ literal, IsReadAs (written negative ['0'] (some (List.replicate gap '0' ++ digits)) none)
      negative decimal literal := by
  refine exists_isReadAs isDigit_zeroText (by decide) (by decide) ?after (.inl rfl) ?value ?place
  case after =>
    rintro _ ⟨⟩
    refine ⟨by simp [nonempty], fun c member => ?_⟩
    rcases List.mem_append.mp member with zero | digit
    · exact Text.isDigit_of_mem_replicate zero
    · exact areDigits c digit
  case value =>
    have zeros : ['0'] ++ (List.replicate gap '0' ++ digits) =
        List.replicate (gap + 1) '0' ++ digits := by
      rw [List.replicate_succ, ← List.append_assoc, List.singleton_append]
    rw [Option.getD_some, zeros, Text.natural_append, Text.natural_replicate_zero, value,
      Nat.zero_mul, Nat.zero_add]
  case place =>
    rw [← place, Option.getD_none, Option.getD_some, List.length_append, List.length_replicate]
    omega

/-- One digit before the point, the others after it and an exponent. -/
theorem exists_isReadAs_scientific {first : Char} {others : List Char}
    (areDigits : ∀ c ∈ first :: others, c.isDigit = true)
    (value : Text.natural (first :: others) = decimal.digits) :
    ∃ literal, IsReadAs (written negative [first]
      (if others = [] then none else some others) (some (others.length + decimal.exponent)))
      negative decimal literal := by
  refine exists_isReadAs (fun c member => areDigits c ?first) (by simp) (by simp) ?after (.inr rfl)
    ?value ?place
  case first => exact List.mem_cons.mpr (.inl (List.mem_singleton.mp member))
  all_goals split
  case after.isTrue => nofun
  case after.isFalse nonempty =>
    rintro _ ⟨⟩
    exact ⟨nonempty, fun c member => areDigits c (List.mem_cons_of_mem _ member)⟩
  case value.isTrue alone => rwa [alone] at value
  case value.isFalse => exact value
  case place.isTrue alone => simp [alone]
  case place.isFalse => simp

end Layouts

/-- The text of a decimal is read as its digits in their place. -/
theorem exists_literal (decimal : Decimal) (negative : Bool) :
    ∃ literal, IsReadAs ((if negative then ['-'] else []) ++ decimal.characters) negative
      decimal.asRead literal := by
  have areDigits : ∀ c ∈ Nat.toDigits 10 decimal.digits, c.isDigit = true :=
    fun _ => Text.isDigit_of_mem_toDigits
  have value : Text.natural (Nat.toDigits 10 decimal.digits) = decimal.digits :=
    Text.natural_toDigits
  rw [characters, asRead]
  by_cases zero : decimal.digits = 0
  · simp only [if_pos zero]
    simpa [written, fractionText, exponentText] using exists_isReadAs_zero negative
  simp only [if_neg zero]
  have noZero := head?_toDigits zero
  have nonempty := @Nat.toDigits_ne_nil decimal.digits 10
  generalize Nat.toDigits 10 decimal.digits = digits at *
  -- The cases are those of the text: the decimal is whole, parted by its point, below one, or has
  -- an exponent.
  by_cases whole : 0 ≤ decimal.exponent ∧ (digits.length : Int) + decimal.exponent ≤ 16
  · simp only [if_pos whole]
    have found := exists_isReadAs_whole negative decimal.exponent.toNat areDigits nonempty noZero
    rw [value] at found
    simpa [written, fractionText, exponentText] using found
  simp only [if_neg whole]
  by_cases inside : 0 < (digits.length : Int) + decimal.exponent ∧
      (digits.length : Int) + decimal.exponent ≤ 16
  · simp only [if_pos inside]
    have found := exists_isReadAs_parted negative
      ((digits.length : Int) + decimal.exponent).toNat areDigits value noZero (by omega) (by omega)
      (by omega)
    simpa [written, fractionText, exponentText] using found
  simp only [if_neg inside]
  by_cases below : -5 < (digits.length : Int) + decimal.exponent ∧
      (digits.length : Int) + decimal.exponent ≤ 0
  · simp only [if_pos below]
    have found := exists_isReadAs_below negative
      (-((digits.length : Int) + decimal.exponent)).toNat areDigits value nonempty (by omega)
    simpa [written, fractionText, exponentText] using found
  simp only [if_neg below]
  obtain ⟨first, others, rfl⟩ := List.exists_cons_of_ne_nil nonempty
  have found := exists_isReadAs_scientific negative areDigits value
  have exponent : ((first :: others).length : Int) + decimal.exponent - 1 =
      others.length + decimal.exponent := by
    rw [List.length_cons]
    omega
  rw [exponent]
  cases others with
  | nil => simpa [written, fractionText, exponentText] using found
  | cons second others => simpa [written, fractionText, exponentText] using found

end CodeAtlas.Decimal
