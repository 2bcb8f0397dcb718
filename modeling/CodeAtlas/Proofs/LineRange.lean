import CodeAtlas.Proofs.CodeReference

/-!
# Ranges of lines

The text of a range of lines has each of the lines that the range names with a line feed after it.
Only a single line that is blank is lost: of it nothing is left, not even its line feed.  So the
texts of two ranges, one right after the other, are together the text of both, unless one of them
names a single blank line and the other names something too.
-/

namespace CodeAtlas

namespace LineRange

variable {α : Type} {range first second : LineRange} {lines : List (List Char)}

/-! ## Lines by their numbers -/

/-- The lines that a range names, found by their numbers. -/
def named (range : LineRange) (lines : List (List Char)) : List (List Char) :=
  ((lines.zipIdx 1).filter fun numbered =>
    max range.start 1 ≤ numbered.2 && numbered.2 ≤ range.stop).map Prod.fst

/-- Items between two numbers, counted from a number, are a run of the list. -/
theorem map_fst_filter_zipIdx (low high number : Nat) (items : List α) :
    ((items.zipIdx number).filter fun numbered =>
        low ≤ numbered.2 && numbered.2 ≤ high).map Prod.fst =
      (items.drop (low - number)).take (high + 1 - max low number) := by
  induction items generalizing number with
  | nil => simp
  | cons item items hypothesis =>
      rw [List.zipIdx_cons, List.filter_cons]
      rcases Nat.lt_or_ge number low with before | reached
      · have skip : low - number = low - (number + 1) + 1 := by omega
        have same : max low (number + 1) = max low number := by omega
        have outside : ¬(low ≤ number) := Nat.not_le.mpr before
        simp only [outside, decide_false, Bool.false_and, Bool.false_eq_true, if_false,
          hypothesis, skip, same, List.drop_succ_cons]
      · have none : low - number = 0 := Nat.sub_eq_zero_of_le reached
        have still : low - (number + 1) = 0 := by omega
        have here : max low number = number := Nat.max_eq_right reached
        have next : max low (number + 1) = number + 1 := by omega
        rw [none, here, List.drop_zero]
        rcases Nat.lt_or_ge high number with past | inside
        · have outside : ¬(number ≤ high) := Nat.not_le.mpr past
          have done : high + 1 - number = 0 := Nat.sub_eq_zero_of_le past
          have stays : high + 1 - (number + 1) = 0 := by omega
          simp only [outside, decide_false, Bool.and_false, Bool.false_eq_true, if_false,
            hypothesis, still, next, done, stays, List.take_zero]
        · have more : high + 1 - number = high + 1 - (number + 1) + 1 := by omega
          simp only [reached, inside, decide_true, Bool.and_true, if_true, List.map_cons,
            hypothesis, still, next, more, List.drop_zero, List.take_succ_cons]

theorem named_eq_within (range : LineRange) (lines : List (List Char)) :
    range.named lines = range.within lines := by
  have positive : 1 ≤ max range.start 1 := Nat.le_max_right _ _
  rw [named, map_fst_filter_zipIdx, within, Nat.max_eq_left positive, Nat.sub_add_cancel positive]

/-- The range from the first line of one range to the last line of another. -/
def upTo (first second : LineRange) : LineRange := ⟨first.start, second.stop⟩

/-- One range begins right after another, and each ends at most one line before it begins. -/
structure Precedes (first second : LineRange) : Prop where
  next : second.start = first.stop + 1
  forward : max first.start 1 ≤ first.stop + 1
  onward : first.stop ≤ second.stop

theorem Precedes.named_append (precedes : first.Precedes second) (lines : List (List Char)) :
    first.named lines ++ second.named lines = (first.upTo second).named lines := by
  obtain ⟨next, forward, onward⟩ := precedes
  have begins : max second.start 1 = first.stop + 1 := by omega
  have positive : 1 ≤ max first.start 1 := Nat.le_max_right _ _
  have skip : first.stop = max first.start 1 - 1 + (first.stop + 1 - max first.start 1) := by omega
  have total : second.stop + 1 - max first.start 1 =
      (first.stop + 1 - max first.start 1) + (second.stop - first.stop) := by omega
  simp only [named_eq_within, within, upTo, begins, Nat.sub_add_cancel positive,
    Nat.add_sub_cancel, Nat.add_sub_add_right]
  rw [total, List.take_add, List.drop_drop, ← skip]

/-! ## The text of lines -/

/-- Lines with a line feed after each. -/
def spelled (lines : List (List Char)) : List Char := lines.flatMap (· ++ ['\n'])

theorem joinWith_append_feed (some : lines ≠ []) :
    Text.joinWith ['\n'] lines ++ ['\n'] = spelled lines := by
  induction lines with
  | nil => exact absurd rfl some
  | cons line lines hypothesis =>
      cases lines with
      | nil => simp [Text.joinWith, spelled]
      | cons next lines =>
          rw [Text.joinWith_cons_cons, List.append_assoc, hypothesis (List.cons_ne_nil _ _)]
          simp [spelled]

theorem joinWith_eq_nil_iff : Text.joinWith ['\n'] lines = [] ↔ lines = [] ∨ lines = [[]] := by
  cases lines with
  | nil => simp [Text.joinWith]
  | cons line lines =>
      cases lines with
      | nil => simp [Text.joinWith]
      | cons next lines => simp [Text.joinWith_cons_cons]

theorem spelled_append (front back : List (List Char)) :
    spelled (front ++ back) = spelled front ++ spelled back :=
  List.flatMap_append

theorem spelled_ne_nil (some : lines ≠ []) : spelled lines ≠ [] := by
  rw [← joinWith_append_feed some]
  simp

/-- What is kept of lines: all of them unless there is a single blank one. -/
def kept (lines : List (List Char)) : List Char := if lines = [[]] then [] else spelled lines

theorem kept_blank : kept [[]] = [] := rfl

theorem kept_of_ne (written : lines ≠ [[]]) : kept lines = spelled lines := if_neg written

theorem kept_eq_spelled_iff : kept lines = spelled lines ↔ lines ≠ [[]] := by
  constructor
  · rintro same rfl
    exact spelled_ne_nil (List.cons_ne_nil _ _) same.symm
  · exact kept_of_ne

theorem length_kept_le (lines : List (List Char)) :
    (kept lines).length ≤ (spelled lines).length := by
  rw [kept]
  split
  · exact Nat.zero_le _
  · exact Nat.le_refl _

/-- A blank line beside something is kept, so what was kept without it is too short. -/
theorem kept_ne_of_longer {more : List (List Char)}
    (longer : (spelled more).length = (spelled lines).length + 1) (several : more ≠ [[]]) :
    kept lines ≠ kept more := by
  intro same
  have short := length_kept_le lines
  rw [same, kept_of_ne several] at short
  omega

/-- What is kept of two runs of lines is together what is kept of both unless a blank line that is
lost stands beside something. -/
theorem kept_append_iff (front back : List (List Char)) :
    kept front ++ kept back = kept (front ++ back) ↔
      (front = [[]] → back = []) ∧ (back = [[]] → front = []) := by
  by_cases lostFront : front = [[]]
  · subst lostFront
    rw [kept_blank, List.nil_append]
    by_cases alone : back = []
    · subst alone
      simp [kept, spelled]
    · have longer : (spelled ([[]] ++ back)).length = (spelled back).length + 1 := by
        rw [spelled_append, List.length_append, Nat.add_comm]
        rfl
      have several : [[]] ++ back ≠ [[]] := by simpa using alone
      refine iff_of_false (kept_ne_of_longer longer several) ?_
      exact fun ⟨nothing, _⟩ => alone (nothing rfl)
  · by_cases lostBack : back = [[]]
    · subst lostBack
      rw [kept_blank, List.append_nil]
      by_cases alone : front = []
      · subst alone
        simp [kept, spelled]
      · have longer : (spelled (front ++ [[]])).length = (spelled front).length + 1 := by
          rw [spelled_append, List.length_append]
          rfl
        have several : front ++ [[]] ≠ [[]] := by simpa using alone
        refine iff_of_false (kept_ne_of_longer longer several) ?_
        exact fun ⟨_, nothing⟩ => alone (nothing rfl)
    · have several : front ++ back ≠ [[]] := by
        rw [Ne, List.append_eq_singleton_iff]
        simp [lostFront, lostBack]
      rw [kept_of_ne lostFront, kept_of_ne lostBack, kept_of_ne several, spelled_append]
      simp [lostFront, lostBack]

theorem select_eq (range : LineRange) (lines : List (List Char)) :
    range.select lines = kept (range.named lines) := by
  rw [select, ← named_eq_within, kept]
  by_cases blank : range.named lines = [[]]
  · rw [blank]
    rfl
  · rw [if_neg blank]
    by_cases none : range.named lines = []
    · rw [none]
      rfl
    · have written : (Text.joinWith ['\n'] (range.named lines)).isEmpty = false := by
        rw [List.isEmpty_eq_false_iff, Ne, joinWith_eq_nil_iff]
        exact not_or.mpr ⟨none, blank⟩
      simp only [written, Bool.false_eq_true, if_false]
      exact joinWith_append_feed none

/-! ## Numbers in words -/

/-- How many lines stand before those of a range, in a word. -/
def skippedWord (start : UInt32) : UInt64 := (max start 1).toUInt64 - 1

/-- How many lines a range has, in a word; a word is not lowered below zero. -/
def countWord (start stop : UInt32) : UInt64 :=
  if skippedWord start + 1 ≤ stop.toUInt64 + 1 then stop.toUInt64 + 1 - (skippedWord start + 1)
  else 0

/-- No step leaves the words of 64 bits in which the lines of a range are counted, and what the
words count are the lines of the range. -/
structure FitsWords (start stop : UInt32) : Prop where
  skipped : (skippedWord start).toNat + 1 = max start.toNat 1
  first : (skippedWord start + 1).toNat = (skippedWord start).toNat + 1
  past : (stop.toUInt64 + 1).toNat = stop.toNat + 1
  count : (countWord start stop).toNat = stop.toNat + 1 - max start.toNat 1
  within : ∀ lines, LineRange.within ⟨start.toNat, stop.toNat⟩ lines =
    (lines.drop (skippedWord start).toNat).take (countWord start stop).toNat

theorem toNat_max_one (start : UInt32) : (max start 1).toNat = max start.toNat 1 := by
  have same : max start 1 = if start ≤ 1 then 1 else start := rfl
  rw [same, apply_ite UInt32.toNat, Nat.max_def]
  rfl

theorem fitsWords (start stop : UInt32) : FitsWords start stop := by
  have below : max start.toNat 1 < 2 ^ 32 := Nat.max_lt.mpr ⟨start.toNat_lt, by decide⟩
  have positive : 1 ≤ max start.toNat 1 := Nat.le_max_right _ _
  have skipped : (skippedWord start).toNat + 1 = max start.toNat 1 := by
    rw [skippedWord, UInt64.toNat_sub_of_le]
    · rw [UInt32.toNat_toUInt64, toNat_max_one]
      exact Nat.sub_add_cancel positive
    · rw [UInt64.le_iff_toNat_le, UInt32.toNat_toUInt64, toNat_max_one]
      exact positive
  have first : (skippedWord start + 1).toNat = (skippedWord start).toNat + 1 := by
    rw [UInt64.toNat_add]
    exact Nat.mod_eq_of_lt (skipped ▸ Nat.lt_trans below (by decide))
  have past : (stop.toUInt64 + 1).toNat = stop.toNat + 1 := by
    rw [UInt64.toNat_add, UInt32.toNat_toUInt64]
    have bound := stop.toNat_lt
    exact Nat.mod_eq_of_lt (Nat.lt_of_le_of_lt bound (by decide))
  have count : (countWord start stop).toNat = stop.toNat + 1 - max start.toNat 1 := by
    rw [countWord]
    split
    next some =>
      rw [UInt64.toNat_sub_of_le _ _ some, past, first, skipped]
    next none =>
      rw [UInt64.le_iff_toNat_le, past, first, skipped, Nat.not_le] at none
      exact (Nat.sub_eq_zero_of_le (Nat.le_of_lt none)).symm
  refine ⟨skipped, first, past, count, fun lines => ?_⟩
  rw [within, count, ← skipped, Nat.add_sub_cancel]

end LineRange

namespace CodeReference

variable {disk : Disk} {root text : String}

/-- The reference to some lines of the file. -/
def withLines (reference : CodeReference) (range : LineRange) : CodeReference :=
  { reference with lines := some range }

theorem load_withLines {reference : CodeReference}
    (document : disk.readText (Path.resolve root reference.path) = .ok text) (range : LineRange) :
    (reference.withLines range).load disk root =
      .ok (String.ofList (LineRange.kept (range.named (Text.lines text.toList)))) := by
  have read : disk.readText (Path.resolve root (reference.withLines range).path) = .ok text :=
    document
  rw [load, read, ← LineRange.select_eq]
  rfl

/-- Whatever text a file holds, every range of it is loaded.  What is loaded is each line that the
range names with a line feed after it, exactly unless that is a single blank line, of which nothing
is loaded; two ranges, one right after the other, load what their union does exactly unless one of
them is such a line and the other names something; and counting the lines stays within words. -/
theorem load_names_lines_iff {reference : CodeReference}
    (document : disk.readText (Path.resolve root reference.path) = .ok text) :
    let lines := Text.lines text.toList
    (∀ range : LineRange, ∃ loaded, (reference.withLines range).load disk root = .ok loaded ∧
      (loaded = String.ofList (LineRange.spelled (range.named lines)) ↔
        range.named lines ≠ [[]]) ∧
      (range.named lines = [[]] → loaded = "")) ∧
    (∀ first second : LineRange, first.Precedes second → ∃ front back whole,
      (reference.withLines first).load disk root = .ok front ∧
      (reference.withLines second).load disk root = .ok back ∧
      (reference.withLines (first.upTo second)).load disk root = .ok whole ∧
      (front ++ back = whole ↔ (first.named lines = [[]] → second.named lines = []) ∧
        (second.named lines = [[]] → first.named lines = []))) ∧
    ∀ start stop, LineRange.FitsWords start stop := by
  intro lines
  refine ⟨?_, ?_, LineRange.fitsWords⟩
  · intro range
    refine ⟨_, load_withLines document range, ?_, ?_⟩
    · rw [String.ofList_inj]
      exact LineRange.kept_eq_spelled_iff
    · intro blank
      rw [blank]
      rfl
  · intro first second precedes
    refine ⟨_, _, _, load_withLines document first, load_withLines document second,
      load_withLines document (first.upTo second), ?_⟩
    rw [← String.ofList_append, String.ofList_inj, ← precedes.named_append]
    exact LineRange.kept_append_iff _ _

/-- A disk with one file of a project. -/
def linesDisk (text : String) : Disk :=
  ⟨.ofList [("demo", .directory), ("demo/a.py", .file text.toUTF8 default)], []⟩

/-- A reference to that file. -/
def linesReference : CodeReference := ⟨"a.py", "", default, none⟩

/-- A blank line beside another is loaded, and what follows is loaded after it. -/
theorem load_names_blank_beside :
    (linesDisk "x\n\ny").readText (Path.resolve "/demo" linesReference.path) = .ok "x\n\ny" ∧
      (linesReference.withLines ⟨0, 2⟩).load (linesDisk "x\n\ny") "/demo" = .ok "x\n\n" ∧
      ∃ back whole, (linesReference.withLines ⟨3, 9⟩).load (linesDisk "x\n\ny") "/demo" = .ok back ∧
        (linesReference.withLines ⟨0, 9⟩).load (linesDisk "x\n\ny") "/demo" = .ok whole ∧
        "x\n\n" ++ back = whole := by
  have document : (linesDisk "x\n\ny").readText (Path.resolve "/demo" linesReference.path) =
      .ok "x\n\ny" := toOption_eq_some_iff.mp (by decide +kernel)
  obtain ⟨ranges, adjacent, -⟩ := load_names_lines_iff document
  obtain ⟨loaded, isLoaded, spelled, -⟩ := ranges ⟨0, 2⟩
  obtain rfl : loaded = "x\n\n" := (spelled.mpr (by decide +kernel)).trans (by decide +kernel)
  obtain ⟨front, back, whole, isFront, isBack, isWhole, together⟩ :=
    adjacent ⟨0, 2⟩ ⟨3, 9⟩ ⟨rfl, by decide, by decide⟩
  cases isLoaded.symm.trans isFront
  refine ⟨document, isLoaded, back, whole, isBack, isWhole, together.mpr ?_⟩
  exact ⟨by decide +kernel, by decide +kernel⟩

/-- Of a single blank line nothing is loaded, and its spelling is not nothing. -/
theorem load_loses_blank_line :
    (linesReference.withLines ⟨1, 1⟩).load (linesDisk "\n") "/demo" = .ok "" ∧
      String.ofList (LineRange.spelled (LineRange.named ⟨1, 1⟩ (Text.lines "\n".toList))) =
        "\n" := by
  have document : (linesDisk "\n").readText (Path.resolve "/demo" linesReference.path) =
      .ok "\n" := toOption_eq_some_iff.mp (by decide +kernel)
  have lost : String.ofList (LineRange.kept (LineRange.named ⟨1, 1⟩ (Text.lines "\n".toList))) =
      "" := by decide +kernel
  exact ⟨(load_withLines document ⟨1, 1⟩).trans (congrArg Except.ok lost), by decide +kernel⟩

end CodeReference

end CodeAtlas
