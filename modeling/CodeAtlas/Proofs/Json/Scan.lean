import CodeAtlas.Json.Reader
import CodeAtlas.Json.Writer
import Mathlib.Tactic.ByContra
import Mathlib.Tactic.SplitIfs

/-!
# Tokens of a written text

What the writer puts on the page is cut into tokens again: blanks are passed over, a text between
quotation marks gives the text whatever had to be escaped in it, and a word or number ends where
something else begins.
-/

namespace CodeAtlas.Json.Token

variable {done : List Token} {text word rest : List Char} {c : Char}

attribute [local simp] scan

/-! ## Between tokens -/

theorem scan_spaces {spaces : List Char} (all : ∀ c ∈ spaces, isSpace c = true) :
    scan .between done (spaces ++ rest) = scan .between done rest := by
  induction spaces with
  | nil => rfl
  | cons c spaces induction =>
      obtain ⟨space, others⟩ := List.forall_mem_cons.mp all
      rw [List.cons_append, scan]
      simp only [space, ↓reduceIte]
      exact induction others

theorem mark_of_punctuation? {token : Token} (mark : punctuation? c = some token) :
    c = '[' ∨ c = ']' ∨ c = '{' ∨ c = '}' ∨ c = ',' ∨ c = ':' := by
  by_contra other
  simp only [not_or] at other
  simp [punctuation?, other] at mark

theorem scan_punctuation (token : Token) (mark : punctuation? c = some token) :
    scan .between done (c :: rest) = scan .between (token :: done) rest := by
  have known := mark_of_punctuation? mark
  have notSpace : isSpace c = false := by
    rcases known with rfl | rfl | rfl | rfl | rfl | rfl <;> rfl
  have notQuote : c ≠ '"' := by
    rcases known with rfl | rfl | rfl | rfl | rfl | rfl <;> decide
  have notBare : isBare c = false := by
    rcases known with rfl | rfl | rfl | rfl | rfl | rfl <;> rfl
  simp [notSpace, notQuote, notBare, mark]

/-! ## Texts -/

theorem scan_quote :
    scan .between done ('"' :: rest) = scan (.text [] false) done rest := by
  simp [isSpace]

theorem scan_endQuote :
    scan (.text text false) done ('"' :: rest) =
      scan .between (.text (some (String.ofList text.reverse)) :: done) rest := by
  rw [scan.eq_def]
  simp

theorem scan_plain (printable : 32 ≤ c.toNat) (notQuote : c ≠ '"') (notSlash : c ≠ '\\') :
    scan (.text text false) done (c :: rest) = scan (.text (c :: text) false) done rest := by
  rw [scan.eq_def]
  simp [notQuote, notSlash]
  omega

theorem scan_escaped {letter character : Char} (notUnit : letter ≠ 'u')
    (known : escaped? letter = some character) :
    scan (.text text false) done ('\\' :: letter :: rest) =
      scan (.text (character :: text) false) done rest := by
  rw [scan]
  · simp [known]
  · exact fun _ _ _ _ _ _ _ _ _ same => absurd same notUnit
  · exact fun _ _ _ _ _ same => absurd same notUnit

/-- What goes on with a unit of a text goes on with a whole one. -/
def UnitsWhole (rest : List Char) : Prop :=
  ∀ p q r s after, rest = '\\' :: 'u' :: p :: q :: r :: s :: after →
    ∃ unit, codeUnit? p q r s = some unit

/-- A unit that is no half of a pair stands for itself. -/
theorem scan_unit {p q r s : Char} {unit : Nat} (known : codeUnit? p q r s = some unit)
    (notHigh : isHighSurrogate unit = false) (notLow : isLowSurrogate unit = false)
    (whole : UnitsWhole rest) :
    scan (.text text false) done ('\\' :: 'u' :: p :: q :: r :: s :: rest) =
      scan (.text (Char.ofNat unit :: text) false) done rest := by
  by_cases next : ∃ p q r s after, rest = '\\' :: 'u' :: p :: q :: r :: s :: after
  · obtain ⟨a, b, d, e, after, rfl⟩ := next
    obtain ⟨second, nextKnown⟩ := whole a b d e after rfl
    simp [known, nextKnown, notHigh, notLow]
  · rw [scan]
    · simp [known, notHigh, notLow]
    · intro a b d e after same
      exact next ⟨a, b, d, e, after, same⟩

theorem hexValue?_hexDigit (value : Nat) : hexValue? (hexDigit value) = some (value % 16) := by
  have all : ∀ digit < 16, hexValue? (Nat.digitChar digit) = some digit := by decide
  exact all _ (Nat.mod_lt _ (by decide))

/-- A control character has a unit of its own. -/
theorem codeUnit?_hexDigits {unit : Nat} (control : unit < 32) :
    codeUnit? '0' '0' (hexDigit (unit / 16)) (hexDigit unit) = some unit := by
  have zero : hexValue? '0' = some 0 := rfl
  simp only [codeUnit?, hexValue?_hexDigit, zero, Option.bind_eq_bind, Option.bind_some, pure,
    Option.some.injEq]
  omega

/-- A character is written as a letter after a backslash, as a unit, or as it is. -/
theorem escapeCharacter_cases (c : Char) :
    (∃ letter, letter ≠ 'u' ∧ escaped? letter = some c ∧ escapeCharacter c = ['\\', letter]) ∨
      c.toNat < 32 ∧
        escapeCharacter c =
          ['\\', 'u', '0', '0', hexDigit (c.toNat / 16), hexDigit c.toNat] ∨
      32 ≤ c.toNat ∧ c ≠ '"' ∧ c ≠ '\\' ∧ escapeCharacter c = [c] := by
  have coded {code : Nat} (same : c.toNat = code) : c = Char.ofNat code := by
    rw [← same, Char.ofNat_toNat]
  unfold escapeCharacter
  split_ifs with quote slash eight nine ten twelve thirteen control
  · exact .inl ⟨'"', by decide, by rw [quote]; rfl, rfl⟩
  · exact .inl ⟨'\\', by decide, by rw [slash]; rfl, rfl⟩
  · exact .inl ⟨'b', by decide, by rw [coded eight]; rfl, rfl⟩
  · exact .inl ⟨'t', by decide, by rw [coded nine]; rfl, rfl⟩
  · exact .inl ⟨'n', by decide, by rw [coded ten]; rfl, rfl⟩
  · exact .inl ⟨'f', by decide, by rw [coded twelve]; rfl, rfl⟩
  · exact .inl ⟨'r', by decide, by rw [coded thirteen]; rfl, rfl⟩
  · exact .inr (.inl ⟨control, rfl⟩)
  · exact .inr (.inr ⟨Nat.not_lt.mp control, quote, slash, rfl⟩)

theorem unitsWhole_escaped (characters : List Char) :
    UnitsWhole (characters.flatMap escapeCharacter ++ '"' :: rest) := by
  intro p q r s after same
  cases characters with
  | nil => simp at same
  | cons c others =>
      rw [List.flatMap_cons] at same
      rcases escapeCharacter_cases c with
        ⟨letter, notUnit, -, written⟩ | ⟨control, written⟩ | ⟨-, -, notSlash, written⟩
      · simp [written, notUnit] at same
      · simp only [written, List.cons_append, List.cons.injEq] at same
        obtain ⟨-, -, rfl, rfl, rfl, rfl, -⟩ := same
        exact ⟨_, codeUnit?_hexDigits control⟩
      · simp [written, notSlash] at same

/-- One character of a text is read back, escaped or not. -/
theorem scan_escapeCharacter (whole : UnitsWhole rest) :
    scan (.text text false) done (escapeCharacter c ++ rest) =
      scan (.text (c :: text) false) done rest := by
  rcases escapeCharacter_cases c with
    ⟨letter, notUnit, known, written⟩ | ⟨control, written⟩ |
      ⟨printable, notQuote, notSlash, written⟩
  · rw [written]
    exact scan_escaped notUnit known
  · have notHigh : isHighSurrogate c.toNat = false := by simp [isHighSurrogate]; omega
    have notLow : isLowSurrogate c.toNat = false := by simp [isLowSurrogate]; omega
    rw [written]
    exact (scan_unit (codeUnit?_hexDigits control) notHigh notLow whole).trans
      (by rw [Char.ofNat_toNat])
  · rw [written]
    exact scan_plain printable notQuote notSlash

theorem scan_escapes (characters : List Char) :
    scan (.text text false) done (characters.flatMap escapeCharacter ++ '"' :: rest) =
      scan .between (.text (some (String.ofList (text.reverse ++ characters))) :: done) rest := by
  induction characters generalizing text with
  | nil => rw [List.flatMap_nil, List.nil_append, scan_endQuote, List.append_nil]
  | cons c others induction =>
      rw [List.flatMap_cons, List.append_assoc, scan_escapeCharacter (unitsWhole_escaped others),
        induction, List.reverse_cons, List.append_assoc, List.singleton_append]

/-- A text between quotation marks is read back. -/
theorem scan_quoted (content : String) :
    scan .between done (quoted content ++ rest) =
      scan .between (.text (some content) :: done) rest := by
  rw [quoted, List.cons_append, scan_quote, List.append_assoc, List.singleton_append,
    scan_escapes, List.reverse_nil, List.nil_append, String.ofList_toList]

/-! ## Words and numbers -/

/-- What a word or a number may stand before: nothing, a blank, or a mark. -/
def EndsBare (rest : List Char) : Prop :=
  ∀ c ∈ rest.head?, isSpace c = true ∨ ∃ token, punctuation? c = some token

@[simp] theorem endsBare_nil : EndsBare [] := by simp [EndsBare]

theorem isBare_eq_false_of_ends (ends : EndsBare (c :: rest)) : isBare c = false := by
  rcases ends c rfl with space | ⟨token, mark⟩
  · simp only [isSpace, Bool.or_eq_true, decide_eq_true_eq] at space
    rcases space with ((rfl | rfl) | rfl) | rfl <;> rfl
  · rcases mark_of_punctuation? mark with rfl | rfl | rfl | rfl | rfl | rfl <;> rfl

theorem scan_bare {found : Json} (all : ∀ c ∈ word, isBare c = true) (before : List Char)
    (known : bareValue? (before.reverse ++ word) = some found) (ends : EndsBare rest) :
    scan (.bare before) done (word ++ rest) = scan .between (.value found :: done) rest := by
  induction word generalizing before with
  | nil =>
      rw [List.append_nil] at known
      rw [List.nil_append]
      cases rest with
      | nil => simp [scan, known]
      | cons c rest =>
          have notBare := isBare_eq_false_of_ends ends
          rw [scan.eq_def]
          simp only [notBare, known, Bool.false_eq_true, ↓reduceIte]
          rcases ends c rfl with space | ⟨token, mark⟩
          · simp [space]
          · rw [scan_punctuation token mark]
            have notSpace : isSpace c = false := by
              rcases mark_of_punctuation? mark with rfl | rfl | rfl | rfl | rfl | rfl <;> rfl
            simp [notSpace, mark]
  | cons c word induction =>
      obtain ⟨bare, others⟩ := List.forall_mem_cons.mp all
      rw [List.cons_append, scan.eq_def]
      simp only [bare, ↓reduceIte]
      exact induction others (c :: before) (by simpa using known)

end CodeAtlas.Json.Token
