import CodeAtlas.Proofs.Json.Text

/-!
# What can be read of a text

Numbers of a text are integers of 64 bits and finite values of double precision.  The tokens of a
text hold no others, and neither does the value that is built of them.
-/

namespace CodeAtlas

/-- A number as texts hold them: an integer of 64 bits or a finite value of double precision. -/
def JsonNumber.IsRead : JsonNumber → Prop
  | .integer value => -2 ^ 63 ≤ value ∧ value < 2 ^ 64
  | .double value => value.IsProper ∧ value.isFinite = true
  | .single _ => False

namespace JsonNumber.Literal

open Ieee

variable {literal : Literal} {number : JsonNumber}

/-! ## Numbers -/

/-- What holds of a value and of every quotient holds of the value when it is scaled down. -/
theorem scaleDown_induction {holds : Binary64 → Prop}
    (quotient : ∀ first second, holds (first / second))
    (steps : ℕ) {value : Binary64} (begins : holds value) (exponent : ℤ) :
    holds (scaleDown steps value exponent) := by
  induction steps generalizing value exponent with
  | zero => exact begins
  | succ steps induction =>
      rw [scaleDown]
      split_ifs
      · exact quotient _ _
      · exact begins
      · exact induction (quotient _ _) _

/-- A number that is scaled is a quotient, nothing, or a finite product. -/
theorem scale?_induction (holds : Binary64 → Prop) {significand : ℕ} {exponent : ℤ}
    {value : Binary64} (scaled : scale? significand exponent = some value)
    (begins : holds (ofNat .double significand)) (zero : holds .zero)
    (quotient : ∀ first second, holds (first / second))
    (product : ∀ first second, holds (first * second)) : holds value := by
  rw [scale?] at scaled
  extract_lets at scaled
  split_ifs at scaled
  · exact Option.some.inj scaled ▸ scaleDown_induction quotient _ begins _
  · exact Option.some.inj scaled ▸ zero
  · exact Option.some.inj scaled ▸ product _ _

theorem isFinite_of_scale? {significand : ℕ} {exponent : ℤ} {value : Binary64}
    (few : significand < 2 ^ 64) (scaled : scale? significand exponent = some value) :
    value.isFinite = true := by
  by_cases negative : exponent < 0
  · obtain ⟨units, same⟩ := exists_scale?_of_neg few negative
    rw [scaled] at same
    cases same
    rfl
  · rw [scale?, if_neg negative] at scaled
    extract_lets at scaled
    split_ifs at scaled with none far finite
    · exact Option.some.inj scaled ▸ rfl
    · exact Option.some.inj scaled ▸ finite

theorem isProper_of_scale? {significand : ℕ} {exponent : ℤ} {value : Binary64}
    (scaled : scale? significand exponent = some value) : value.IsProper := by
  refine scale?_induction (fun value => value.IsProper) scaled ?_ ?_ ?_ ?_
  · exact isProper_ofNat (by decide) significand
  · exact isProper_zero false
  · exact isProper_div (by decide)
  · exact isProper_mul (by decide)

/-- The digits read so far fit 64 bits. -/
def Scaled.Fits (read : Scaled) : Prop := read.significand < 2 ^ 64

theorem Scaled.fits_wholeDigit {read : Scaled} (fits : read.Fits) (digit : ℕ) :
    (read.wholeDigit digit).Fits := by
  rw [wholeDigit]
  split_ifs with full
  · exact fits
  · simp only [Bool.or_eq_true, decide_eq_true_eq, not_or, not_le, Nat.pow_eq] at full
    exact full.2

theorem Scaled.fits_fractionDigit {read : Scaled} (fits : read.Fits) (digit : ℕ) :
    (read.fractionDigit digit).Fits := by
  rw [fractionDigit]
  split_ifs with full
  · exact fits
  · simp only [Bool.or_eq_true, decide_eq_true_eq, not_or, not_le, Nat.pow_eq] at full
    exact full.2

/-- At the point more digits are read. -/
theorem Scaled.Fits.reopened {read : Scaled} (fits : read.Fits) :
    Scaled.Fits ⟨read.significand, read.exponent, false⟩ :=
  fits

theorem Scaled.fits_foldl {read : Scaled} {step : Scaled → ℕ → Scaled}
    (keeps : ∀ {read : Scaled}, read.Fits → ∀ digit : ℕ, (step read digit).Fits)
    (fits : read.Fits) (digits : List ℕ) : (digits.foldl step read).Fits := by
  induction digits generalizing read with
  | nil => exact fits
  | cons digit rest induction => exact induction (keeps fits digit)

theorem isRead_of_value? (found : literal.value? = some number) : number.IsRead := by
  rw [value?] at found
  dsimp only at found
  split_ifs at found with natural negative
  · cases found
    simp only [Bool.and_eq_true, decide_eq_true_eq, Nat.pow_eq] at natural
    exact ⟨by omega, by exact_mod_cast natural.2⟩
  · cases found
    simp only [Bool.and_eq_true, decide_eq_true_eq, Nat.pow_eq] at negative
    exact ⟨by omega, by omega⟩
  all_goals
    obtain ⟨value, scaled, rfl⟩ := Option.map_eq_some_iff.mp found
    have whole := @Scaled.fits_foldl ⟨0, 0, false⟩ _ Scaled.fits_wholeDigit
      (by decide : 0 < 2 ^ 64) literal.whole
    have fits := Scaled.fits_foldl Scaled.fits_fractionDigit whole.reopened
      (literal.fraction.getD [])
    have finite := isFinite_of_scale? fits scaled
    have proper := isProper_of_scale? scaled
  · rw [neg_eq]
    exact ⟨proper.neg, (isFinite_neg value).trans finite⟩
  · exact ⟨proper, finite⟩

end JsonNumber.Literal

namespace Json

/-! ## Values -/

/-- A value whose numbers are as texts hold them. -/
inductive IsRead : Json → Prop
  | null : IsRead .null
  | bool (value : Bool) : IsRead (.bool value)
  | number {value : JsonNumber} (read : value.IsRead) : IsRead (.number value)
  | string (text : String) : IsRead (.string text)
  | array {items : List Json} (read : ∀ item ∈ items, item.IsRead) : IsRead (.array items)
  | object {members : List (String × Json)} (read : ∀ member ∈ members, member.2.IsRead) :
      IsRead (.object members)
  | unreadable : IsRead .unreadable

/-! ## Tokens -/

namespace Token

/-- A token whose value is as texts hold it. -/
def IsRead : Token → Prop
  | .value held => held.IsRead
  | _ => True

theorem isRead_of_bareValue? {characters : List Char} {value : Json}
    (found : bareValue? characters = some value) : value.IsRead := by
  rw [bareValue?] at found
  split_ifs at found
  · cases found
    exact .null
  · cases found
    exact .bool true
  · cases found
    exact .bool false
  · obtain ⟨literal, -, rfl⟩ := Option.map_eq_some_iff.mp found
    split
    next number isNumber => exact .number (JsonNumber.Literal.isRead_of_value? isNumber)
    next => exact .unreadable

theorem isRead_of_punctuation? {c : Char} {token : Token} (found : punctuation? c = some token) :
    token.IsRead := by
  rw [punctuation?] at found
  split_ifs at found
  all_goals
    cases found
    trivial

/-- All tokens of a text are as texts hold them. -/
theorem isRead_of_scan {mode : Mode} {done tokens : List Token} {characters : List Char}
    (read : ∀ token ∈ done, token.IsRead)
    (found : scan mode done characters = some tokens) : ∀ token ∈ tokens, token.IsRead := by
  have readAlso {done : List Token} (token : Token) (first : token.IsRead)
      (others : ∀ token ∈ done, token.IsRead) : ∀ other ∈ token :: done, other.IsRead :=
    List.forall_mem_cons.mpr ⟨first, others⟩
  -- Only the end of the text, of a number or word, of a text and a mark give tokens.
  fun_induction scan mode done characters with
  | case1 =>
      cases found
      simpa using read
  | case3 done word =>
      obtain ⟨value, isValue, rfl⟩ := Option.map_eq_some_iff.mp found
      intro token member
      exact readAlso (.value value) (isRead_of_bareValue? isValue) read token
        (List.mem_reverse.mp member)
  | case7 _ _ _ _ _ _ token isMark induction =>
      exact induction (readAlso _ (isRead_of_punctuation? isMark) read) found
  | case10 _ _ _ _ _ noValue =>
      simp only [List.unattach_reverse, List.unattach_attach] at noValue
      rw [noValue] at found
      cases found
  | case11 _ _ _ _ _ value isValue space induction =>
      simp only [List.unattach_reverse, List.unattach_attach] at isValue
      simp only [isValue, space, if_true] at found
      exact induction (readAlso (.value value) (isRead_of_bareValue? isValue) read) found
  | case12 _ _ _ _ _ value isValue noSpace token isMark induction =>
      simp only [List.unattach_reverse, List.unattach_attach] at isValue
      simp only [isValue, noSpace, isMark] at found
      exact induction (readAlso _ (isRead_of_punctuation? isMark)
        (readAlso (.value value) (isRead_of_bareValue? isValue) read)) found
  | case13 _ _ _ _ _ value isValue noSpace noMark =>
      simp only [List.unattach_reverse, List.unattach_attach] at isValue
      simp only [isValue, noSpace, noMark] at found
      cases found
  | case14 _ _ characters broken content induction =>
      have same : content = if broken = true then none else some (String.ofList characters.reverse) := by
        simp only [content, dite_eq_ite, List.unattach_reverse, List.unattach_attach]
      rw [same] at induction
      exact induction (readAlso _ trivial read) found
  | case2 | case8 | case15 | case20 | case23 | case25 | case26 => cases found
  | case4 | case5 | case6 | case9 | case16 | case17 | case18 | case19 | case21 | case22 | case24
  | case27 =>
      rename_i induction
      exact induction read found

end Token

/-! ## Building a value -/

namespace Builder

/-- What a container holds so far is as texts hold it. -/
def IsReadFrame : Frame → Prop
  | .array done => ∀ item ∈ done, item.IsRead
  | .object done _ _ => ∀ member ∈ done, member.2.IsRead

/-- All values are as texts hold them. -/
structure IsRead (builder : Builder) : Prop where
  stack : ∀ frame ∈ builder.stack, IsReadFrame frame
  finished : ∀ value, builder.phase = .finished value → value.IsRead

variable {builder next : Builder} {stack : List Frame} {token : Token} {value : Json}

theorem isRead_put (frames : ∀ frame ∈ stack, IsReadFrame frame) (read : value.IsRead) :
    (put stack value).IsRead := by
  cases stack with
  | nil =>
      refine ⟨by simp [put], fun other finished => ?_⟩
      cases finished
      exact read
  | cons frame outer =>
      obtain ⟨inner, others⟩ := List.forall_mem_cons.mp frames
      cases frame with
      | array done =>
          refine ⟨List.forall_mem_cons.mpr ⟨?_, others⟩, nofun⟩
          exact List.forall_mem_cons.mpr ⟨read, inner⟩
      | object done name broken =>
          refine ⟨List.forall_mem_cons.mpr ⟨?_, others⟩, nofun⟩
          exact List.forall_mem_cons.mpr ⟨read, inner⟩

theorem isRead_closeArray? (frames : ∀ frame ∈ stack, IsReadFrame frame)
    (closed : closeArray? stack = some next) : next.IsRead := by
  unfold closeArray? at closed
  split at closed
  next done outer =>
    cases closed
    obtain ⟨inner, others⟩ := List.forall_mem_cons.mp frames
    exact isRead_put others (.array fun item member => inner item (List.mem_reverse.mp member))
  next => cases closed

theorem isRead_closeObject? (frames : ∀ frame ∈ stack, IsReadFrame frame)
    (closed : closeObject? stack = some next) : next.IsRead := by
  unfold closeObject? at closed
  split at closed
  next done name broken outer =>
    cases closed
    obtain ⟨inner, others⟩ := List.forall_mem_cons.mp frames
    refine isRead_put others ?_
    split
    · exact .unreadable
    · exact .object fun member isMember => inner member (List.mem_reverse.mp isMember)
  next => cases closed

theorem isRead_nameMember? {content : Option String} (frames : ∀ frame ∈ stack, IsReadFrame frame)
    (named : nameMember? stack content = some next) : next.IsRead := by
  unfold nameMember? at named
  split at named
  next done name broken outer =>
    obtain ⟨inner, others⟩ := List.forall_mem_cons.mp frames
    split at named
    all_goals
      cases named
      exact ⟨List.forall_mem_cons.mpr ⟨inner, others⟩, by simp⟩
  next => cases named

theorem isRead_step? (read : builder.IsRead) (isRead : token.IsRead)
    (stepped : builder.step? token = some next) : next.IsRead := by
  have opened {frame : Frame} (isEmpty : IsReadFrame frame) {phase : Phase}
      (unfinished : ∀ value, phase ≠ .finished value) : IsRead ⟨frame :: builder.stack, phase⟩ :=
    ⟨List.forall_mem_cons.mpr ⟨isEmpty, read.stack⟩,
      fun value finished => absurd finished (unfinished value)⟩
  have same {phase : Phase} (unfinished : ∀ value, phase ≠ .finished value) :
      IsRead ⟨builder.stack, phase⟩ :=
    ⟨read.stack, fun value finished => absurd finished (unfinished value)⟩
  have text (content : Option String) : (textValue content).IsRead := by
    cases content with
    | none => exact .unreadable
    | some text => exact .string text
  unfold step? at stepped
  split at stepped
  case h_1 | h_2 => cases stepped; exact opened (by simp [IsReadFrame]) (by simp)
  case h_3 | h_4 => cases stepped; exact opened (by simp [IsReadFrame]) (by simp)
  case h_5 | h_6 => cases stepped; exact isRead_put read.stack (text _)
  case h_7 | h_8 => cases stepped; exact isRead_put read.stack isRead
  case h_9 | h_10 => exact isRead_closeArray? read.stack stepped
  case h_11 | h_12 => exact isRead_closeObject? read.stack stepped
  case h_13 | h_14 => exact isRead_nameMember? read.stack stepped
  case h_15 => cases stepped; exact same (by simp)
  case h_16 =>
    split at stepped
    · cases stepped; exact same (by simp)
    · cases stepped; exact same (by simp)
    · cases stepped
  case h_17 => cases stepped

theorem isRead_foldlM {tokens : List Token} (read : builder.IsRead)
    (isRead : ∀ token ∈ tokens, token.IsRead)
    (stepped : tokens.foldlM step? builder = some next) : next.IsRead := by
  induction tokens generalizing builder with
  | nil =>
      cases stepped
      exact read
  | cons token rest induction =>
      obtain ⟨first, others⟩ := List.forall_mem_cons.mp isRead
      rw [List.foldlM_cons] at stepped
      obtain ⟨middle, step, later⟩ := Option.bind_eq_some_iff.mp stepped
      exact induction (isRead_step? read first step) others later

end Builder

/-- The value of a text is as texts hold it. -/
theorem isRead_of_ofText? {text : String} {value : Json} (found : ofText? text = some value) :
    value.IsRead := by
  obtain ⟨tokens, scanned, built⟩ := Option.bind_eq_some_iff.mp found
  obtain ⟨builder, folded, finished⟩ := Option.bind_eq_some_iff.mp built
  have begins : Builder.IsRead ⟨[], .item⟩ := ⟨by simp, nofun⟩
  have read := Builder.isRead_foldlM begins (Token.isRead_of_scan (by simp) scanned) folded
  unfold Builder.result? at finished
  split at finished
  next value isFinished =>
    cases finished
    exact read.finished _ isFinished
  next => cases finished

end Json

end CodeAtlas
