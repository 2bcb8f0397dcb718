import CodeAtlas.Instant
import CodeAtlas.Proofs.Text.Digits
import Mathlib.Tactic.IntervalCases

/-!
# Instants that are read back

Days are numbered without gaps, and the text of an instant of the calendar is read back as that
instant.  Every instant that a text gives is one of the calendar, so what was read once can be
written and read again.
-/

namespace CodeAtlas.Instant

/-! ## Days -/

namespace Day

/-- The year in which a day of an era lies.  The era's runs of four years are counted without
their leap days, which the last year of a century may lack. -/
theorem year_bounds (day year century quarter : Int)
    (first : 36524 * century ≤ day) (last : day < 36524 * century + 36524)
    (centuryLeast : 0 ≤ century) (centuryMost : century ≤ 3)
    (quarterFirst : 1460 * quarter ≤ day) (quarterLast : day < 1460 * quarter + 1460)
    (yearFirst : 365 * year ≤ day - quarter + century)
    (yearLast : day - quarter + century < 365 * year + 365) (notFinal : day < 146096) :
    0 ≤ year ∧ year ≤ 399 ∧ daysBeforeYear year ≤ day ∧ day < daysBeforeYear (year + 1) := by
  have hundreds : year / 100 = century := by omega
  have eras : year / 400 = 0 := by omega
  unfold daysBeforeYear
  rw [hundreds, eras]
  refine ⟨by omega, by omega, by omega, ?_⟩
  by_cases turn : year = 100 * century + 99
  · subst turn
    have nextHundreds : (100 * century + 99 + 1) / 100 = century + 1 := by omega
    omega
  · have nextHundreds : (year + 1) / 100 = century := by omega
    have nextEras : (year + 1) / 400 = 0 := by omega
    omega

theorem yearOfEra_bounds {ofEra : Int} (least : 0 ≤ ofEra) (most : ofEra < 146097) :
    let year := (ofEra - ofEra / 1460 + ofEra / 36524 - ofEra / 146096) / 365
    0 ≤ year ∧ year ≤ 399 ∧ daysBeforeYear year ≤ ofEra ∧ ofEra < daysBeforeYear (year + 1) := by
  intro year
  by_cases final : ofEra = 146096
  · subst final
    decide
  · have noFinal : ofEra / 146096 = 0 := by omega
    have yearIs : year = (ofEra - ofEra / 1460 + ofEra / 36524) / 365 := by
      simp only [year, noFinal, Int.sub_zero]
    clear_value year
    apply year_bounds ofEra year (ofEra / 36524) (ofEra / 1460) <;> omega

/-- The day that stands some days after 1 March of a year. -/
def ofMarch (year : Int) (ofYear : Nat) : Day :=
  let month := (5 * ofYear + 2) / 153
  let day := ofYear - (153 * month + 2) / 5 + 1
  if month < 10 then ⟨year, month + 3, day⟩ else ⟨year + 1, month - 9, day⟩

theorem daysBeforeYear_add (year era : Int) :
    daysBeforeYear (year + era * 400) = daysBeforeYear year + era * 146097 := by
  unfold daysBeforeYear
  omega

/-- Every day stands within a year that begins in March. -/
theorem exists_ofMarch (number : Int) :
    ∃ year ofYear, ofNumber number = ofMarch year ofYear ∧
      daysBeforeYear year + ofYear = number + 719468 ∧
      daysBeforeYear year + ofYear < daysBeforeYear (year + 1) := by
  obtain ⟨least, most, begins, ends⟩ := yearOfEra_bounds
    (Int.emod_nonneg (number + 719468) (by decide : (146097 : Int) ≠ 0))
    (Int.emod_lt_of_pos (number + 719468) (by decide))
  have split := Int.mul_ediv_add_emod (number + 719468) 146097
  refine ⟨_, _, rfl, ?_, ?_⟩
  · rw [daysBeforeYear_add, Int.toNat_of_nonneg (Int.sub_nonneg_of_le begins)]
    omega
  · rw [Int.add_right_comm, daysBeforeYear_add, daysBeforeYear_add,
      Int.toNat_of_nonneg (Int.sub_nonneg_of_le begins)]
    omega

theorem daysBeforeYear_next (year : Int) :
    daysBeforeYear (year + 1) =
      daysBeforeYear year + 365 + if isLeap (year + 1) then 1 else 0 := by
  unfold daysBeforeYear
  split
  next leap =>
    simp only [isLeap, Bool.and_eq_true, Bool.or_eq_true, beq_iff_eq, bne_iff_ne] at leap
    omega
  next common =>
    simp only [isLeap, Bool.and_eq_true, Bool.or_eq_true, beq_iff_eq, bne_iff_ne] at common
    omega

theorem number_ofMarch {year : Int} {ofYear : Nat} (within : ofYear < 366) :
    (ofMarch year ofYear).number = daysBeforeYear year + ofYear - 719468 := by
  simp only [ofMarch]
  split
  next early =>
    have month : ((5 * ofYear + 2) / 153 + 3 + 9) % 12 = (5 * ofYear + 2) / 153 := by omega
    have notWinter : ¬(5 * ofYear + 2) / 153 + 3 ≤ 2 := by omega
    simp only [number, month, if_neg notWinter]
    omega
  next late =>
    have month : ((5 * ofYear + 2) / 153 - 9 + 9) % 12 = (5 * ofYear + 2) / 153 := by omega
    have winter : (5 * ofYear + 2) / 153 - 9 ≤ 2 := by omega
    simp only [number, month, if_pos winter, Int.add_sub_cancel]
    omega

/-- A day has the number that it was made of. -/
theorem number_ofNumber (number : Int) : (ofNumber number).number = number := by
  obtain ⟨year, ofYear, same, stands, within⟩ := exists_ofMarch number
  have short : ofYear < 366 := by
    rw [daysBeforeYear_next] at within
    split at within <;> omega
  rw [same, number_ofMarch short, stands]
  omega

/-- A month of the year and a day of that month. -/
structure IsProper (day : Day) : Prop where
  monthLeast : 1 ≤ day.month
  monthMost : day.month ≤ 12
  dayLeast : 1 ≤ day.day
  dayMost : day.day ≤ monthLength day.year day.month

theorem isProper_ofNumber (number : Int) : (ofNumber number).IsProper := by
  obtain ⟨year, ofYear, same, -, within⟩ := exists_ofMarch number
  rw [daysBeforeYear_next] at within
  rw [same]
  simp only [ofMarch]
  split
  next early =>
    -- From March to December the lengths of the months do not depend on the year.
    refine ⟨by simp only; omega, by simp only; omega, Nat.le_add_left 1 _, ?_⟩
    simp only
    generalize isMonth : (5 * ofYear + 2) / 153 = month at early
    interval_cases month <;> simp [monthLength] <;> omega
  next late =>
    refine ⟨by simp only; omega, by simp only; omega, Nat.le_add_left 1 _, ?_⟩
    simp only
    generalize isMonth : (5 * ofYear + 2) / 153 = month at late
    have few : month < 12 := by omega
    interval_cases month
    case «10» => simp [monthLength]; omega
    case «11» =>
      simp only [monthLength]
      split at within <;> simp_all <;> omega

end Day

/-! ## The parts of a text -/

variable {rest : List Char}

theorem isBlank_of_isDigit {c : Char} (digit : c.isDigit = true) : Text.isBlank c = false := by
  simp only [Char.isDigit, Bool.and_eq_true, decide_eq_true_eq, UInt32.le_iff_toNat_le] at digit
  have code : c.toNat = c.val.toNat := rfl
  simp only [Text.isBlank, Bool.or_eq_false_iff, Bool.and_eq_false_iff, decide_eq_false_iff_not,
    beq_eq_false_iff_ne]
  have least : '0'.val.toNat = 48 := rfl
  have most : '9'.val.toNat = 57 := rfl
  omega

theorem skipBlanks_cons {c : Char} (solid : Text.isBlank c = false) :
    skipBlanks (c :: rest) = c :: rest := by
  simp [skipBlanks, solid]

/-- Digits at the head are no blanks, and no sign either. -/
theorem exists_digit_of_padded (width value : Nat) :
    ∃ digit others, digit.isDigit = true ∧ Text.padded width value = digit :: others := by
  obtain ⟨digit, others, same⟩ := List.exists_cons_of_ne_nil (@Text.padded_ne_nil value width)
  exact ⟨digit, others, Text.isDigit_of_mem_padded (same ▸ List.mem_cons_self), same⟩

theorem skipBlanks_padded (width value : Nat) :
    skipBlanks (Text.padded width value ++ rest) = Text.padded width value ++ rest := by
  obtain ⟨digit, others, isDigit, same⟩ := exists_digit_of_padded width value
  rw [same, List.cons_append, skipBlanks_cons (isBlank_of_isDigit isDigit)]

theorem takePair?_padded {least most value : Nat} (fits : value < 100) (above : least ≤ value)
    (below : value ≤ most) (ends : Text.EndsDigits rest) :
    takePair? least most (Text.padded 2 value ++ rest) = some (value, rest) := by
  rw [takePair?, skipBlanks_padded, Text.takeNatural?_padded fits (by decide) le_rfl ends]
  simp [above, below]

theorem skipMark?_cons {mark : Char} (solid : Text.isBlank mark = false) :
    skipMark? mark (mark :: rest) = some rest := by
  simp [skipMark?, skipBlanks_cons solid]

/-- A year is read back with its sign. -/
theorem takeYear?_yearCharacters (year : Int) (ends : Text.EndsDigits rest) :
    takeYear? (yearCharacters year ++ rest) = some (year, rest) := by
  have signed (value : Nat) : Text.takeNatural? (Text.padded 4 value ++ rest).length
      (Text.padded 4 value ++ rest) = some (value, rest) := by
    rw [Text.takeNatural?_append (fun _ => Text.isDigit_of_mem_padded) Text.padded_ne_nil
      (by simp) ends, Text.natural_padded]
  rw [yearCharacters]
  split
  next plain =>
    have fits : year.toNat < 10 ^ 4 := by omega
    have read := Text.takeNatural?_padded fits (by decide) le_rfl ends
    have skipped : skipBlanks (Text.padded 4 year.toNat ++ rest) = _ :=
      skipBlanks_padded 4 year.toNat
    obtain ⟨digit, others, isDigit, same⟩ := exists_digit_of_padded 4 year.toNat
    rw [same, List.cons_append] at read skipped ⊢
    rw [takeYear?, skipped]
    split
    · simp_all
    · simp_all
    · rw [read]
      simp; omega
  next outside =>
    by_cases negative : year < 0
    · rw [if_pos negative, List.cons_append, takeYear?, skipBlanks_cons (by decide)]
      simp only [signed, Option.map_some, Option.some.injEq, Prod.mk.injEq, and_true]
      omega
    · rw [if_neg negative, List.cons_append, takeYear?, skipBlanks_cons (by decide)]
      simp only [signed, Option.map_some, Option.some.injEq, Prod.mk.injEq, and_true]
      omega

/-- A fraction is read back whatever number of digits it is written with. -/
theorem takeFraction?_fractionCharacters {nanos : Nat} (short : nanos < 1000000000) :
    takeFraction? (fractionCharacters nanos ++ ['Z']) = some (nanos, ['Z']) := by
  have digits {width value : Nat} (positive : 0 < width) (few : width ≤ 9)
      (fits : value < 10 ^ width) (same : value * 10 ^ (9 - width) = nanos) :
      takeFraction? ('.' :: Text.padded width value ++ ['Z']) = some (nanos, ['Z']) := by
    have length := Text.length_padded positive fits
    rw [List.cons_append, takeFraction?]
    simp only [Text.takeWhile_isDigit (fun _ => Text.isDigit_of_mem_padded)
        (Text.endsDigits_cons.mpr (rfl : 'Z'.isDigit = false)),
      List.take_of_length_le (length.trans_le few), Text.natural_padded, length]
    simp [Text.padded_ne_nil, same, List.drop_left' length]
  rw [fractionCharacters]
  split
  next whole => simp [whole, takeFraction?]
  next =>
    split
    next thousandths => exact digits (by decide) (by decide) (by omega) (by omega)
    next =>
      split
      next millionths => exact digits (by decide) (by decide) (by omega) (by omega)
      next => exact digits (by decide) (by decide) (by omega) (by omega)

theorem endsDigits_fractionCharacters (nanos : Nat) :
    Text.EndsDigits (fractionCharacters nanos ++ ['Z']) := by
  rw [fractionCharacters]
  split
  · simp
  · split
    · simp
    · split <;> simp

/-! ## Texts -/

/-- An instant of the calendar: its nanoseconds are those of a second, or of the leap second at
the end of a minute, and its year is one of the calendar. -/
structure IsValid (instant : Instant) : Prop where
  nanos : instant.nanos < 1000000000 ∨
    instant.nanos < 2000000000 ∧ instant.seconds % 60 = 59
  yearLeast : -yearLimit - 1 ≤ (Day.ofNumber (instant.seconds / 86400)).year
  yearMost : (Day.ofNumber (instant.seconds / 86400)).year ≤ yearLimit

theorem isValid_iff {instant : Instant} : instant.IsValid ↔
    (instant.nanos < 1000000000 ∨ instant.nanos < 2000000000 ∧ instant.seconds % 60 = 59) ∧
      -yearLimit - 1 ≤ (Day.ofNumber (instant.seconds / 86400)).year ∧
      (Day.ofNumber (instant.seconds / 86400)).year ≤ yearLimit :=
  ⟨fun valid => ⟨valid.nanos, valid.yearLeast, valid.yearMost⟩,
    fun parts => ⟨parts.1, parts.2.1, parts.2.2⟩⟩

instance (instant : Instant) : Decidable instant.IsValid := decidable_of_iff _ isValid_iff.symm

/-- A date and a time of that day, written in universal time, are read back. -/
theorem ofText?_ofList {date : Day} {hour minute second nanos : Nat} (proper : date.IsProper)
    (yearLeast : -yearLimit - 1 ≤ date.year) (yearMost : date.year ≤ yearLimit)
    (dated : (Day.ofNumber date.number) = date)
    (hourMost : hour ≤ 23) (minuteMost : minute ≤ 59) (secondMost : second ≤ 60)
    (short : nanos < 1000000000) :
    ofText? (String.ofList (yearCharacters date.year ++ '-' :: Text.padded 2 date.month ++
        '-' :: Text.padded 2 date.day ++ 'T' :: Text.padded 2 hour ++
        ':' :: Text.padded 2 minute ++ ':' :: Text.padded 2 second ++
        fractionCharacters nanos ++ ['Z'])) =
      some ⟨date.number * 86400 +
          (hour * 3600 + minute * 60 + if second = 60 then 59 else second : Int),
        nanos + if second = 60 then 1000000000 else 0⟩ := by
  have dayMost : date.day ≤ 31 :=
    proper.dayMost.trans (by unfold Day.monthLength; split <;> (try split) <;> omega)
  have monthFits := proper.monthMost.trans_lt (by decide : 12 < 100)
  rw [ofText?, String.toList_ofList]
  repeat rw [List.append_assoc]
  refine Option.bind_eq_some_iff.mpr ⟨_, takeYear?_yearCharacters date.year (by simp), ?_⟩
  refine Option.bind_eq_some_iff.mpr ⟨_, skipMark?_cons (by decide), ?_⟩
  refine Option.bind_eq_some_iff.mpr
    ⟨_, takePair?_padded monthFits proper.monthLeast proper.monthMost (by simp), ?_⟩
  refine Option.bind_eq_some_iff.mpr ⟨_, skipMark?_cons (by decide), ?_⟩
  refine Option.bind_eq_some_iff.mpr
    ⟨_, takePair?_padded (by omega) proper.dayLeast dayMost (by simp), ?_⟩
  -- The mark between date and time is one of three; it decides nothing else.
  refine Option.bind_eq_some_iff.mpr ⟨_, rfl, ?_⟩
  refine Option.bind_eq_some_iff.mpr
    ⟨_, takePair?_padded (by omega) (Nat.zero_le _) hourMost (by simp), ?_⟩
  refine Option.bind_eq_some_iff.mpr ⟨_, skipMark?_cons (by decide), ?_⟩
  refine Option.bind_eq_some_iff.mpr
    ⟨_, takePair?_padded (by omega) (Nat.zero_le _) minuteMost (by simp), ?_⟩
  refine Option.bind_eq_some_iff.mpr ⟨_, skipMark?_cons (by decide), ?_⟩
  refine Option.bind_eq_some_iff.mpr ⟨_, takePair?_padded (by omega) (Nat.zero_le _) secondMost
    (endsDigits_fractionCharacters nanos), ?_⟩
  refine Option.bind_eq_some_iff.mpr ⟨_, takeFraction?_fractionCharacters short, ?_⟩
  refine Option.bind_eq_some_iff.mpr ⟨(0, []),
    by simp [skipBlanks_cons, (by decide : Text.isBlank 'Z' = false), takeOffset?], ?_⟩
  have finished : ¬(!(skipBlanks []).isEmpty) = true := by simp [skipBlanks]
  have inMonth : ¬(Day.monthLength date.year date.month < date.day ∨ 86400 ≤ (0 : Int).natAbs) := by
    have := proper.dayMost
    simp only [Int.natAbs_zero]
    omega
  have inCalendar : ¬(date.year < -yearLimit - 1 ∨ yearLimit < date.year) := by omega
  have within : (date.number * 86400 +
      (hour * 3600 + minute * 60 + (if second = 60 then 59 else second : Nat) : Int)) / 86400 =
        date.number := by
    split <;> omega
  obtain ⟨year, month, day⟩ := date
  simp only at within dated inCalendar inMonth ⊢
  simp only [finished, inMonth, beq_iff_eq, Bool.false_eq_true, ↓reduceIte, within, dated,
    if_neg inCalendar, Int.sub_zero]
  rfl

/-- The text of an instant of the calendar is read back as that instant. -/
theorem ofText?_text {instant : Instant} (valid : instant.IsValid) :
    ofText? instant.text = some instant := by
  obtain ⟨seconds, nanos⟩ := instant
  obtain ⟨leapOrNot, yearLeast, yearMost⟩ := isValid_iff.mp valid
  simp only at leapOrNot yearLeast yearMost
  have number := Day.number_ofNumber (seconds / 86400)
  have short : (if 1000000000 ≤ nanos then nanos - 1000000000 else nanos) < 1000000000 := by
    split <;> omega
  rw [text, ofText?_ofList (Day.isProper_ofNumber _) yearLeast yearMost (by rw [number])
    (by omega) (by omega) (by split <;> omega) short]
  simp only [Option.some.injEq, Instant.mk.injEq, number]
  by_cases leap : 1000000000 ≤ nanos
  · have lastSecond : seconds % 60 = 59 := by omega
    have sixty : (seconds % 86400).toNat % 60 + 1 = 60 := by omega
    simp only [if_pos leap, if_pos sixty]
    omega
  · have notLeap : ¬(seconds % 86400).toNat % 60 + 0 = 60 := by omega
    simp only [if_neg leap, if_neg notLeap]
    omega

theorem lt_of_takeFraction? {nanos : Nat} {characters : List Char}
    (taken : takeFraction? characters = some (nanos, rest)) : nanos < 1000000000 := by
  unfold takeFraction? at taken
  split at taken
  next after =>
    simp only [Option.ite_none_left_eq_some, Option.some.injEq, Prod.mk.injEq] at taken
    obtain ⟨-, rfl, -⟩ := taken
    generalize isKept : (after.takeWhile Char.isDigit).take 9 = kept
    have few : kept.length ≤ 9 := by simp [← isKept]
    have all : ∀ c ∈ kept, c.isDigit = true := fun c member => by
      rw [← isKept] at member
      exact List.mem_takeWhile_imp (List.mem_of_mem_take member)
    calc
      Text.natural kept * 10 ^ (9 - kept.length) < 10 ^ kept.length * 10 ^ (9 - kept.length) :=
        Nat.mul_lt_mul_of_pos_right (Text.natural_lt all) (by positivity)
      _ = 1000000000 := by rw [← Nat.pow_add, Nat.add_sub_cancel' few]
  next =>
    simp only [Option.some.injEq, Prod.mk.injEq] at taken
    omega

/-- Offsets are whole minutes. -/
theorem emod_of_takeOffset? {offset : Int} {characters : List Char}
    (taken : takeOffset? characters = some (offset, rest)) : offset % 60 = 0 := by
  unfold takeOffset? at taken
  split at taken
  case h_1 | h_2 =>
    cases taken
    rfl
  case h_3 | h_4 | h_5 =>
    obtain ⟨⟨hours, afterHours⟩, -, taken⟩ := Option.bind_eq_some_iff.mp taken
    obtain ⟨⟨minutes, afterMinutes⟩, -, taken⟩ := Option.bind_eq_some_iff.mp taken
    cases taken
    simp only [Bool.false_eq_true, ↓reduceIte]
    omega
  case h_6 =>
    simp only [Option.ite_none_right_eq_some, Option.some.injEq, Prod.mk.injEq] at taken
    omega
  case h_7 => cases taken

/-- Every instant that a text gives is one of the calendar. -/
theorem isValid_of_ofText? {written : String} {instant : Instant}
    (read : ofText? written = some instant) : instant.IsValid := by
  unfold ofText? at read
  obtain ⟨⟨year, _⟩, -, read⟩ := Option.bind_eq_some_iff.mp read
  obtain ⟨_, -, read⟩ := Option.bind_eq_some_iff.mp read
  obtain ⟨⟨month, _⟩, -, read⟩ := Option.bind_eq_some_iff.mp read
  obtain ⟨_, -, read⟩ := Option.bind_eq_some_iff.mp read
  obtain ⟨⟨day, rest⟩, -, read⟩ := Option.bind_eq_some_iff.mp read
  simp only [] at read
  split at read
  case h_4 => cases read
  all_goals
    obtain ⟨_, -, read⟩ := Option.bind_eq_some_iff.mp read
    obtain ⟨⟨hour, _⟩, -, read⟩ := Option.bind_eq_some_iff.mp read
    obtain ⟨_, -, read⟩ := Option.bind_eq_some_iff.mp read
    obtain ⟨⟨minute, _⟩, -, read⟩ := Option.bind_eq_some_iff.mp read
    obtain ⟨_, -, read⟩ := Option.bind_eq_some_iff.mp read
    obtain ⟨⟨second, _⟩, -, read⟩ := Option.bind_eq_some_iff.mp read
    obtain ⟨⟨fraction, _⟩, fractionTaken, read⟩ := Option.bind_eq_some_iff.mp read
    obtain ⟨⟨offset, _⟩, offsetTaken, read⟩ := Option.bind_eq_some_iff.mp read
    simp only [Option.bind_eq_bind, Option.bind_none, Option.ite_none_left_eq_some, beq_iff_eq,
      pure, Option.some.injEq] at read
    obtain ⟨-, -, -, inCalendar, rfl⟩ := read
    have minutes := emod_of_takeOffset? offsetTaken
    have fractionShort := lt_of_takeFraction? fractionTaken
    refine isValid_iff.mpr ⟨?_, by simp only; omega, by simp only; omega⟩
    by_cases leap : second = 60
    · refine .inr ⟨by simp only [if_pos leap]; omega, ?_⟩
      simp only [if_pos leap]
      omega
    · exact .inl (by simp only [if_neg leap]; omega)

end CodeAtlas.Instant
