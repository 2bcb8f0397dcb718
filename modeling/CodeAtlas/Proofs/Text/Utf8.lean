import Mathlib.Data.String.Basic
import Mathlib.Tactic.SplitIfs

/-!
# The order of texts in bytes

Texts are ordered by their characters.  Comparing them byte by byte in UTF-8 gives the same order,
because a smaller character has a smaller byte before its code ends.
-/

namespace CodeAtlas.Text

/-- The bytes of a text in UTF-8. -/
def bytes (text : String) : List UInt8 := text.toUTF8.data.toList

theorem bytes_eq (text : String) : bytes text = text.toList.flatMap String.utf8EncodeChar := by
  rw [bytes, String.toUTF8_eq_toByteArray, ← String.utf8Encode_toList, List.utf8Encode,
    List.data_toByteArray, List.toList_toArray]

section Character

variable {c d : Char} {first second : Nat} {rest other : List UInt8}

theorem ofNat_lt_ofNat_iff (byte : first < 256) (otherByte : second < 256) :
    UInt8.ofNat first < UInt8.ofNat second ↔ first < second := by
  rw [UInt8.lt_iff_toNat_lt, UInt8.toNat_ofNat', UInt8.toNat_ofNat']
  omega

theorem ofNat_inj_iff (byte : first < 256) (otherByte : second < 256) :
    UInt8.ofNat first = UInt8.ofNat second ↔ first = second := by
  rw [← UInt8.toNat_inj, UInt8.toNat_ofNat', UInt8.toNat_ofNat']
  omega

/-- Bytes are compared one after the other. -/
theorem ofNat_cons_lt_iff (byte : first < 256) (otherByte : second < 256) :
    UInt8.ofNat first :: rest < UInt8.ofNat second :: other ↔
      first < second ∨ first = second ∧ rest < other := by
  rw [List.cons_lt_cons_iff, ofNat_lt_ofNat_iff byte otherByte, ofNat_inj_iff byte otherByte]

/-- Of two numbers of four digits to the base 64 the smaller one is smaller at its first digit that
differs. -/
theorem digits_of_lt (less : first < second) :
    first / 262144 < second / 262144 ∨ first / 262144 = second / 262144 ∧
      (first / 4096 % 64 < second / 4096 % 64 ∨ first / 4096 % 64 = second / 4096 % 64 ∧
        (first / 64 % 64 < second / 64 % 64 ∨ first / 64 % 64 = second / 64 % 64 ∧
          first % 64 < second % 64)) := by
  have parts (number : Nat) : number = 64 * (number / 64) + number % 64 ∧
      number / 64 = 64 * (number / 4096) + number / 64 % 64 ∧
      number / 4096 = 64 * (number / 262144) + number / 4096 % 64 := by omega
  have firstParts := parts first
  have secondParts := parts second
  by_cases top : first / 262144 = second / 262144
  · by_cases middle : first / 4096 = second / 4096
    · by_cases low : first / 64 = second / 64 <;> omega
    · omega
  · omega

/-- A smaller character comes first, whatever follows it. -/
theorem utf8EncodeChar_append_lt (less : c < d) :
    String.utf8EncodeChar c ++ rest < String.utf8EncodeChar d ++ other := by
  have below : c.val.toNat < d.val.toNat := less
  have bound : d.val.toNat < 0x110000 := by
    have valid := d.valid
    grind
  unfold String.utf8EncodeChar
  dsimp only
  generalize c.val.toNat = m at below
  generalize d.val.toNat = n at below bound
  by_cases long : 65535 < m
  · -- Both codes have four bytes.
    rw [if_neg (by omega), if_neg (by omega), if_neg (by omega), if_neg (by omega),
      if_neg (by omega), if_neg (by omega)]
    simp (disch := omega) only [List.cons_append, ofNat_cons_lt_iff]
    rcases digits_of_lt below with top | ⟨top, middle | ⟨middle, low | ⟨low, last⟩⟩⟩
    · exact .inl (by omega)
    · exact .inr ⟨by omega, .inl (by omega)⟩
    · exact .inr ⟨by omega, .inr ⟨by omega, .inl (by omega)⟩⟩
    · exact .inr ⟨by omega, .inr ⟨by omega, .inr ⟨by omega, .inl (by omega)⟩⟩⟩
  · split_ifs <;> try omega
    all_goals simp (disch := omega) only [List.cons_append, List.nil_append, ofNat_cons_lt_iff]
    all_goals omega

end Character

/-- Smaller texts have smaller bytes. -/
theorem flatMap_utf8EncodeChar_lt {first second : List Char} (less : first < second) :
    first.flatMap String.utf8EncodeChar < second.flatMap String.utf8EncodeChar := by
  induction first generalizing second with
  | nil =>
      cases second with
      | nil => simp at less
      | cons d second =>
          obtain ⟨byte, bytes, code⟩ :=
            List.exists_cons_of_ne_nil (String.utf8EncodeChar_ne_nil (c := d))
          simp [code]
  | cons c first induction =>
      cases second with
      | nil => simp at less
      | cons d second =>
          rw [List.flatMap_cons, List.flatMap_cons]
          rcases List.cons_lt_cons_iff.mp less with smaller | ⟨rfl, later⟩
          · exact utf8EncodeChar_append_lt smaller
          · exact List.append_left_lt (induction later)

theorem lt_iff_bytes_lt {first second : String} : first < second ↔ bytes first < bytes second := by
  have smaller {first second : String} (less : first < second) : bytes first < bytes second := by
    rw [bytes_eq, bytes_eq]
    exact flatMap_utf8EncodeChar_lt (String.lt_iff.mp less)
  refine ⟨smaller, fun less => ?_⟩
  rcases lt_trichotomy first second with below | rfl | above
  · exact below
  · exact absurd less (List.lt_irrefl _)
  · exact absurd less (List.lt_asymm (smaller above))

end CodeAtlas.Text
