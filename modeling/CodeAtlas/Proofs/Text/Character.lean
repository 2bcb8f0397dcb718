import CodeAtlas.Text.Case

/-!
# Laws of characters

Blanks are no parts of words.  What the character classes and the lowercase mapping say of ASCII
characters: a small character, that is a small letter or a digit, stands for itself in lowercase.
-/

namespace CodeAtlas.Text

/-! ## Blanks -/

/-- The codes of the blanks. -/
def blankCodes : List Nat :=
  [0x09, 0x0A, 0x0B, 0x0C, 0x0D, 0x20, 0x85, 0xA0, 0x1680, 0x2000, 0x2001, 0x2002, 0x2003, 0x2004,
    0x2005, 0x2006, 0x2007, 0x2008, 0x2009, 0x200A, 0x2028, 0x2029, 0x202F, 0x205F, 0x3000]

theorem toNat_mem_blankCodes {c : Char} (blank : isBlank c = true) : c.toNat ∈ blankCodes := by
  simp only [isBlank, Bool.or_eq_true, Bool.and_eq_true, decide_eq_true_eq, beq_iff_eq] at blank
  simp only [blankCodes, List.mem_cons, List.not_mem_nil, or_false]
  omega

theorem isWord_eq_false_of_isBlank {c : Char} (blank : isBlank c = true) : isWord c = false := by
  have noWord : ∀ code ∈ blankCodes, isWord (Char.ofNat code) = false := by decide +kernel
  have noWordHere := noWord c.toNat (toNat_mem_blankCodes blank)
  rwa [Char.ofNat_toNat] at noWordHere

theorem isBlank_eq_false_of_isWord {c : Char} (word : isWord c = true) : isBlank c = false := by
  rw [← Bool.not_eq_true]
  intro blank
  rw [isWord_eq_false_of_isBlank blank] at word
  cases word

/-! ## ASCII characters -/

section Ascii

variable {c : Char} {before text : List Char}

/-- The characters whose codes have seven bits. -/
def IsAscii (c : Char) : Prop := c.toNat < 128

instance (c : Char) : Decidable (IsAscii c) := inferInstanceAs (Decidable (c.toNat < 128))

/-- What holds of all codes of seven bits holds of every ASCII character. -/
@[elab_as_elim] theorem IsAscii.of_codes {motive : Char → Prop} (ascii : IsAscii c)
    (all : ∀ code < 128, motive (Char.ofNat code)) : motive c :=
  Char.ofNat_toNat c ▸ all c.toNat ascii

/-- Small letters and digits. -/
def IsSmall (c : Char) : Prop := c.isLower = true ∨ c.isDigit = true

instance (c : Char) : Decidable (IsSmall c) :=
  inferInstanceAs (Decidable (c.isLower = true ∨ c.isDigit = true))

/-- Characters up to one of ASCII are ASCII. -/
theorem isAscii_of_le {last : Char} (below : c.val ≤ last.val) (ascii : IsAscii last) : IsAscii c :=
  Nat.lt_of_le_of_lt (UInt32.le_iff_toNat_le.mp below) ascii

theorem isAscii_of_isLower (lower : c.isLower = true) : IsAscii c := by
  have bounds : (decide (c.val ≥ 'a'.val) && decide (c.val ≤ 'z'.val)) = true := lower
  obtain ⟨-, below⟩ := Bool.and_eq_true_iff.mp bounds
  exact isAscii_of_le (of_decide_eq_true below) (by decide)

theorem isAscii_of_isDigit (digit : c.isDigit = true) : IsAscii c := by
  have bounds : (decide (c.val ≥ '0'.val) && decide (c.val ≤ '9'.val)) = true := digit
  obtain ⟨-, below⟩ := Bool.and_eq_true_iff.mp bounds
  exact isAscii_of_le (of_decide_eq_true below) (by decide)

theorem IsSmall.isAscii (small : IsSmall c) : IsAscii c :=
  small.elim isAscii_of_isLower isAscii_of_isDigit

/-! ## Classes -/

theorem isAlphanumeric_of_isSmall (small : IsSmall c) : isAlphanumeric c = true := by
  have ascii := small.isAscii
  revert small
  exact ascii.of_codes (by decide +kernel)

theorem isUpper_eq_false_of_isSmall (small : IsSmall c) : isUpper c = false := by
  have ascii := small.isAscii
  revert small
  exact ascii.of_codes (by decide +kernel)

theorem isLower_or_isNumeric_of_isSmall (small : IsSmall c) :
    (isLower c || isNumeric c) = true := by
  have ascii := small.isAscii
  revert small
  exact ascii.of_codes (by decide +kernel)

theorem isLower_eq_false_of_isDigit (digit : c.isDigit = true) : isLower c = false := by
  have ascii := isAscii_of_isDigit digit
  revert digit
  exact ascii.of_codes (by decide +kernel)

/-! ## Letters and their capitals -/

/-- What the classes say of the capital of a small letter. -/
structure IsCapital (c : Char) : Prop where
  ascii : IsAscii c
  isUpper : isUpper c = true
  isLower : isLower c = false
  isNumeric : isNumeric c = false
  isAlphanumeric : isAlphanumeric c = true

instance (c : Char) : Decidable (IsCapital c) :=
  decidable_of_iff (IsAscii c ∧ isUpper c = true ∧ isLower c = false ∧ isNumeric c = false ∧
    isAlphanumeric c = true)
    ⟨fun ⟨ascii, upper, lower, numeric, alphanumeric⟩ =>
      ⟨ascii, upper, lower, numeric, alphanumeric⟩,
    fun capital => ⟨capital.ascii, capital.isUpper, capital.isLower, capital.isNumeric,
      capital.isAlphanumeric⟩⟩

theorem isCapital_toUpper (lower : c.isLower = true) : IsCapital c.toUpper := by
  have ascii := isAscii_of_isLower lower
  revert lower
  exact ascii.of_codes (by decide +kernel)

theorem toLower_toUpper (lower : c.isLower = true) : c.toUpper.toLower = c := by
  have ascii := isAscii_of_isLower lower
  revert lower
  exact ascii.of_codes (by decide +kernel)

theorem toUpper_of_isDigit (digit : c.isDigit = true) : c.toUpper = c := by
  have ascii := isAscii_of_isDigit digit
  revert digit
  exact ascii.of_codes (by decide +kernel)

theorem toLower_of_isSmall (small : IsSmall c) : c.toLower = c := by
  have ascii := small.isAscii
  revert small
  exact ascii.of_codes (by decide +kernel)

theorem isSmall_toLower (ascii : IsAscii c) (alphanumeric : isAlphanumeric c = true) :
    IsSmall c.toLower := by
  revert alphanumeric
  exact ascii.of_codes (by decide +kernel)

/-! ## Lowercase -/

/-- An ASCII text is lowered character by character. -/
theorem lowerAfter_of_ascii (ascii : ∀ c ∈ text, IsAscii c) :
    lowerAfter before text = text.map Char.toLower := by
  induction text generalizing before with
  | nil => rfl
  | cons c rest hypothesis =>
      obtain ⟨isAscii, areAscii⟩ := List.forall_mem_cons.mp ascii
      have noSigma : (c == 'Σ') = false := by
        rw [beq_eq_false_iff_ne]
        rintro rfl
        exact absurd isAscii (by decide)
      have lowered : lowerChar c = [c.toLower] := if_pos isAscii
      rw [lowerAfter, noSigma, hypothesis areAscii, lowered]
      rfl

theorem lowercase_of_ascii (ascii : ∀ c ∈ text, IsAscii c) :
    lowercase (String.ofList text) = String.ofList (text.map Char.toLower) := by
  rw [lowercase, String.toList_ofList, lowerAfter_of_ascii ascii]

end Ascii

end CodeAtlas.Text
