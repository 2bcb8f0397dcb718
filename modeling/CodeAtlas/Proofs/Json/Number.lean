import CodeAtlas.Json.Reader
import CodeAtlas.Json.Writer
import CodeAtlas.Proofs.Json.Literal
import CodeAtlas.Proofs.Number.Finite

/-!
# Numbers of written texts

What is read of the text of a number: an integer of 64 bits as itself, a single-precision value as
one of double precision that is rounded to it, and any finite value as some finite value.
-/

namespace CodeAtlas

namespace Decimal

open Ieee

variable {format : Format} {units : ℕ} {negative : Bool} {c : Char}

/-! ## Characters -/

theorem isBare_of_isDigit (digit : c.isDigit = true) : Json.Token.isBare c = true := by
  simp [Json.Token.isBare, Char.isAlphanum, digit]

theorem isBare_of_mem_toDigits {value : ℕ} (member : c ∈ Nat.toDigits 10 value) :
    Json.Token.isBare c = true :=
  isBare_of_isDigit (Text.isDigit_of_mem_toDigits member)

theorem isBare_of_mem_integerCharacters {value : ℤ} (member : c ∈ integerCharacters value) :
    Json.Token.isBare c = true := by
  rw [integerCharacters] at member
  split at member
  · rcases List.mem_cons.mp member with rfl | digit
    · rfl
    · exact isBare_of_mem_toDigits digit
  · exact isBare_of_mem_toDigits member

theorem isBare_of_mem_characters {decimal : Decimal} (member : c ∈ decimal.characters) :
    Json.Token.isBare c = true := by
  have digit {c : Char} (member : c ∈ Nat.toDigits 10 decimal.digits) :
      Json.Token.isBare c = true := isBare_of_mem_toDigits member
  have zero {c : Char} {places : ℕ} (member : c ∈ List.replicate places '0') :
      Json.Token.isBare c = true := isBare_of_isDigit (Text.isDigit_of_mem_replicate member)
  have point : Json.Token.isBare '.' = true := rfl
  have nought : Json.Token.isBare '0' = true := rfl
  have mark : Json.Token.isBare 'e' = true := rfl
  rw [characters] at member
  split_ifs at member
  · exact List.all_eq_true.mp (rfl : ['0', '.', '0'].all Json.Token.isBare = true) c member
  · simp only [List.mem_append, List.mem_cons, List.not_mem_nil, or_false] at member
    rcases member with (isDigit | isZero) | rfl | rfl
    exacts [digit isDigit, zero isZero, point, nought]
  · simp only [List.mem_append, List.mem_cons] at member
    rcases member with before | rfl | after
    exacts [digit (List.mem_of_mem_take before), point, digit (List.mem_of_mem_drop after)]
  · simp only [List.mem_append, List.mem_cons] at member
    rcases member with (rfl | rfl | isZero) | isDigit
    exacts [nought, point, zero isZero, digit isDigit]
  · rcases List.mem_append.mp member with mantissa | exponent
    · split at mantissa
      next first second rest same =>
        rw [same] at digit
        simp only [List.mem_cons] at mantissa
        rcases mantissa with rfl | rfl | rfl | later
        exacts [digit (by simp), point, digit (by simp), digit (by simp [later])]
      next => exact digit mantissa
    · rcases List.mem_cons.mp exponent with rfl | isExponent
      exacts [mark, isBare_of_mem_integerCharacters isExponent]

/-! ## Digits of shortest decimals -/

theorem digits_shortest_lt (some : 0 < format.precision) (few : format.precision ≤ 53)
    (rounded : IsRounded format.precision units) (fits : units < 2 ^ format.width) :
    (shortest format units).digits < 2 ^ 64 := by
  rcases Nat.eq_zero_or_pos units with rfl | positive
  · rw [digits_shortest_zero some]
    exact Nat.two_pow_pos 64
  obtain ⟨candidate, member, -, fewer, -⟩ :=
    exists_candidate_of_shortest some few rounded fits positive
  exact (fewer.trans (bounds_of_mem_candidates positive (by positivity) member).2).trans_lt
    (by norm_num)

end Decimal

namespace Ieee

variable {source target : Format}

theorem ofUnits_not {format : Format} (negative : Bool) (numerator denominator : ℕ) :
    ofUnits format (!negative) numerator denominator =
      (ofUnits format negative numerator denominator).neg := by
  simp only [ofUnits]
  split <;> rfl

theorem convert_neg (value : Ieee source) : value.neg.convert target = (value.convert target).neg := by
  cases value with
  | finite negative units => exact ofUnits_not _ _ _
  | infinite negative => rfl
  | notANumber negative => rfl

theorem neg_eq (value : Ieee source) : -value = value.neg := rfl

theorem isFinite_neg (value : Ieee source) : value.neg.isFinite = value.isFinite := by
  cases value <;> rfl

end Ieee

namespace JsonNumber

open Ieee Decimal Literal

/-- What is read of the text of a number. -/
def reread (number : JsonNumber) : Json :=
  (Json.Token.bareValue? (Json.numberCharacters number)).getD .null

/-- What a literal is read as. -/
theorem bareValue?_of_ofCharacters? {characters : List Char} {literal : Literal}
    (read : ofCharacters? characters = some literal) :
    Json.Token.bareValue? characters = some (match literal.value? with
      | some found => .number found
      | none => .unreadable) := by
  have notWord {word : List Char} (unread : ofCharacters? word = none) : characters ≠ word := by
    rintro rfl
    rw [read] at unread
    cases unread
  rw [Json.Token.bareValue?, if_neg (notWord rfl), if_neg (notWord rfl), if_neg (notWord rfl), read]
  rfl

/-! ## Integers -/

theorem ofCharacters?_integerCharacters (value : ℤ) :
    ofCharacters? (integerCharacters value) = some ⟨decide (value < 0),
      (Nat.toDigits 10 value.natAbs).map digitValue, none, none⟩ := by
  have noZero : 1 < (Nat.toDigits 10 value.natAbs).length →
      (Nat.toDigits 10 value.natAbs).head? ≠ some '0' := by
    intro long
    refine head?_toDigits fun zero => ?_
    rw [zero] at long
    exact absurd long (by decide)
  have read := @ofCharacters?_written _ (decide (value < 0)) none none
    (fun _ => Text.isDigit_of_mem_toDigits) Nat.toDigits_ne_nil noZero (by simp)
  rw [← Option.map_none, ← read, integerCharacters, written]
  split
  next negative => simp [negative, fractionText, exponentText]
  next notNegative => simp [notNegative, fractionText, exponentText]

theorem reread_integer {value : ℤ} (least : -2 ^ 63 ≤ value) (most : value < 2 ^ 64) :
    (integer value).reread = .number (.integer value) := by
  have digits : natural ((Nat.toDigits 10 value.natAbs).map digitValue) = value.natAbs := by
    rw [natural_map_digitValue, Text.natural_toDigits]
  rw [reread, Json.numberCharacters, bareValue?_of_ofCharacters? (ofCharacters?_integerCharacters value),
    Option.getD_some, value?]
  simp only [digits, Option.isNone_none, Bool.and_self, Bool.true_and]
  by_cases negative : value < 0
  · have fits : 0 < value.natAbs ∧ value.natAbs ≤ Nat.pow 2 63 := by
      rw [Nat.pow_eq]
      omega
    have same : -(value.natAbs : ℤ) = value := by omega
    simp only [negative, decide_true, Bool.not_true, Bool.false_and, Bool.false_eq_true,
      ↓reduceIte, fits, Bool.and_self, same]
  · have fits : value.natAbs < Nat.pow 2 64 := by
      rw [Nat.pow_eq]
      omega
    have same : (value.natAbs : ℤ) = value := by omega
    simp [negative, fits, same]

/-! ## Floating-point values -/

section

variable {format : Format} {units : ℕ}

/-- What is read of the text of a value is the reading of its shortest decimal, with its sign. -/
theorem bareValue?_of_reading? (negative : Bool) {read : Binary64}
    (few : (shortest format units).digits < 2 ^ 64)
    (reading : (shortest format units).reading? = some read) :
    Json.Token.bareValue? ((finite negative units : Ieee format).characters?.getD
      Json.nullCharacters) = some (.number (.double (if negative then -read else read))) := by
  obtain ⟨literal, isRead⟩ := exists_literal (shortest format units) negative
  have fits : natural (literal.whole ++ literal.fraction.getD []) < 2 ^ 64 := by
    rw [isRead.digits]
    exact digits_asRead_lt few
  have characters : (finite negative units : Ieee format).characters?.getD Json.nullCharacters =
      (if negative then ['-'] else []) ++ (shortest format units).characters := by
    cases negative <;> rfl
  rw [characters, bareValue?_of_ofCharacters? isRead.read, value?_eq isRead.notWhole fits,
    isRead.digits, isRead.place, isRead.sign]
  rw [reading?] at reading
  rw [reading, Option.map_some]

end

/-- A single-precision value is read as one of double precision that is rounded to it. -/
theorem exists_reread_single {value : Binary32} (proper : value.IsProper)
    (finite : value.isFinite = true) :
    ∃ read : Binary64, (single value).reread = .number (.double read) ∧
      read.convert .single = value := by
  cases proper with
  | infinite _ => cases finite
  | notANumber _ => cases finite
  | @finite negative units rounded fits =>
      have reads := readsAsItself_of_isRounded rounded fits
      rw [readsAsItself, Option.any_eq_true] at reads
      obtain ⟨read, reading, same⟩ := reads
      have text := bareValue?_of_reading? negative
        (digits_shortest_lt (by decide) (by decide) rounded fits) reading
      refine ⟨_, by rw [reread, Json.numberCharacters, text, Option.getD_some], ?_⟩
      have converted := eq_of_beq same
      cases negative with
      | false => exact converted
      | true =>
          change read.neg.convert .single = _
          rw [convert_neg, converted]
          rfl

/-- A finite value of double precision is read as a finite value. -/
theorem exists_reread_double {value : Binary64} (proper : value.IsProper)
    (finite : value.isFinite = true) :
    ∃ read : Binary64, (double value).reread = .number (.double read) ∧ read.isFinite = true := by
  cases proper with
  | infinite _ => cases finite
  | notANumber _ => cases finite
  | @finite negative units rounded fits =>
      have reads := readsAsFinite_of_isRounded rounded fits
      rw [readsAsFinite, Option.any_eq_true] at reads
      obtain ⟨read, reading, isFinite⟩ := reads
      have text := bareValue?_of_reading? negative
        (digits_shortest_lt (by decide) (by decide) rounded fits) reading
      refine ⟨_, by rw [reread, Json.numberCharacters, text, Option.getD_some], ?_⟩
      cases negative with
      | false => exact isFinite
      | true => exact (isFinite_neg read).trans isFinite

/-! ## Every number has a text -/

/-- The characters of a number are those of a literal or of a word. -/
theorem exists_bareValue? (number : JsonNumber) :
    Json.Token.bareValue? (Json.numberCharacters number) = some number.reread := by
  have word : Json.Token.bareValue? Json.nullCharacters = some .null := rfl
  have written {format : Format} (value : Ieee format) :
      ∃ found, Json.Token.bareValue? (value.characters?.getD Json.nullCharacters) = some found := by
    cases value with
    | infinite _ => exact ⟨_, word⟩
    | notANumber _ => exact ⟨_, word⟩
    | finite negative units =>
        obtain ⟨literal, isRead⟩ := exists_literal (shortest format units) negative
        cases negative <;> exact ⟨_, bareValue?_of_ofCharacters? isRead.read⟩
  have found : ∃ found, Json.Token.bareValue? (Json.numberCharacters number) = some found := by
    cases number with
    | integer value => exact ⟨_, bareValue?_of_ofCharacters? (ofCharacters?_integerCharacters value)⟩
    | double value => exact written value
    | single value => exact written value
  obtain ⟨value, same⟩ := found
  rw [reread, same, Option.getD_some]

theorem isBare_of_mem_numberCharacters {number : JsonNumber} {c : Char}
    (member : c ∈ Json.numberCharacters number) : Json.Token.isBare c = true := by
  have word : ∀ c ∈ Json.nullCharacters, Json.Token.isBare c = true :=
    List.all_eq_true.mp rfl
  have written {format : Format} {value : Ieee format}
      (member : c ∈ value.characters?.getD Json.nullCharacters) :
      Json.Token.isBare c = true := by
    cases value with
    | infinite _ => exact word c member
    | notANumber _ => exact word c member
    | finite negative units =>
        cases negative with
        | false => exact isBare_of_mem_characters member
        | true =>
            rcases List.mem_cons.mp member with rfl | magnitude
            · rfl
            · exact isBare_of_mem_characters magnitude
  cases number with
  | integer value => exact isBare_of_mem_integerCharacters member
  | double value => exact written member
  | single value => exact written member

end JsonNumber

end CodeAtlas
