import CodeAtlas.Proofs.Text.Character
import CodeAtlas.Proofs.Text.Cut
import CodeAtlas.Proofs.Text.Extension
import CodeAtlas.Source.CFamily
import Mathlib.Data.List.TakeWhile
import Mathlib.Data.Bool.AllAny

/-!
# Lines with and without a brace at their end

A brace that is put to the end of a line, with blanks before it, changes no match of a directive, of
a function or of a record.
-/

namespace CodeAtlas.Source.CFamily

open CodeAtlas.Text CodeAtlas.Text.Pattern

/-- Blanks and a brace. -/
def IsOpening (ending : List Char) : Prop :=
  ∃ gap, (∀ c ∈ gap, isBlank c = true) ∧ ending = gap ++ ['{']

variable {ending text : List Char} {test : Char → Bool}

namespace IsOpening

theorem rejects (opening : IsOpening ending) (brace : test '{' = false)
    (blank : ∀ c, isBlank c = true → test c = false) : ∀ c ∈ ending, test c = false := by
  obtain ⟨gap, blanks, rfl⟩ := opening
  intro c member
  rcases List.mem_append.mp member with inGap | last
  · exact blank c (blanks c inGap)
  · rw [List.mem_singleton.mp last]
    exact brace

theorem rejects_mark (opening : IsOpening ending) (mark : Char) (brace : '{' ≠ mark)
    (solid : isBlank mark = false) : ∀ c ∈ ending, decide (c = mark) = false := by
  refine opening.rejects (decide_eq_false brace) fun c blank => decide_eq_false ?_
  rintro rfl
  rw [solid] at blank
  cases blank

theorem rejects_word (opening : IsOpening ending) : ∀ c ∈ ending, isWord c = false :=
  opening.rejects (by decide) fun _ => isWord_eq_false_of_isBlank

theorem defineLine_match? (opening : IsOpening ending) (text : List Char) :
    defineLine.match? (text ++ ending) = defineLine.match? text := by
  have stops : StopsBefore ending defineLine :=
    .after (.after (.last (.capture (stopsBefore_several opening.rejects_word) 1)) rfl) rfl
  exact stops.match?_append text

theorem usingLine_match? (opening : IsOpening ending) (text : List Char) :
    usingLine.match? (text ++ ending) = usingLine.match? text := by
  have equals := stopsBefore_one (opening.rejects_mark '=' (by decide) (by decide))
  have stops : StopsBefore ending usingLine :=
    .after (.after (.after (.after (.last (.last equals)) rfl) rfl) rfl) rfl
  exact stops.match?_append text

theorem functionLine_match? (opening : IsOpening ending) (text : List Char) :
    functionLine.match? (text ++ ending) = functionLine.match? text := by
  have parenthesis := stopsBefore_one (opening.rejects_mark '(' (by decide) (by decide))
  have stops : StopsBefore ending functionLine :=
    .after (.after (.after (.after (.last (.last parenthesis)) rfl) rfl) rfl) rfl
  exact stops.match?_append text

theorem includeLine_match? (opening : IsOpening ending) (text : List Char) :
    includeLine.match? (text ++ ending) = includeLine.match? text := by
  have delimiter : ∀ c ∈ ending, (decide (c = '>') || decide (c = '"')) = false := by
    intro c member
    rw [opening.rejects_mark '>' (by decide) (by decide) c member,
      opening.rejects_mark '"' (by decide) (by decide) c member, Bool.or_false]
  have stops : StopsBefore ending includeLine :=
    .after (.after (.last
      (.capture (.after (.after (.last (stopsBefore_one delimiter)) rfl) rfl) 1)) rfl) rfl
  exact stops.match?_append text

end IsOpening

/-! ## Records -/

/-- What may follow the name of a record. -/
def recordEnd : Pattern := sequence [
  blanks, optional (.seq (literal ":") (without ['{', ';'])), .either (literal "\x7b") .atEnd]

/-- The bases of a record, after a colon. -/
def IsBases (bases : List Char) : Prop :=
  bases = [] ∨ ∃ names, (∀ c ∈ names, c ≠ '{' ∧ c ≠ ';') ∧ bases = ':' :: names

/-- Blanks and bases, and then nothing or a brace. -/
def EndsRecord (text : List Char) : Prop :=
  ∃ spaces bases tail, (∀ c ∈ spaces, isBlank c = true) ∧ IsBases bases ∧
    text = spaces ++ bases ++ tail ∧ (tail = [] ∨ ∃ rest, tail = '{' :: rest)

variable {rest : List Char} {captures after : Captures}

theorem endsRecord_of_leads (leads : Leads recordEnd text captures rest after) :
    after = captures ∧ EndsRecord text := by
  simp only [recordEnd, blanks, without, sequence_cons, sequence_nil, leads_seq_iff,
    leads_optional_iff, leads_literal_iff, leads_run_iff, leads_either_iff, leads_atEnd_iff,
    leads_nothing_iff] at leads
  obtain ⟨_, _, ⟨spaces, blank, rfl, rfl⟩, _, _, based, _, _, ended, rfl, rfl⟩ := leads
  have tail {text : List Char} {between : Captures}
      (ended : text = "\x7b".toList ++ rest ∧ after = between ∨
        text = [] ∧ rest = [] ∧ after = between) :
      after = between ∧ (text = [] ∨ ∃ rest, text = '{' :: rest) := by
    rcases ended with ⟨rfl, rfl⟩ | ⟨rfl, rfl, rfl⟩
    · exact ⟨rfl, .inr ⟨rest, rfl⟩⟩
    · exact ⟨rfl, .inl rfl⟩
  obtain ⟨rfl, tails⟩ := tail ended
  rcases based with ⟨_, _, ⟨rfl, rfl⟩, names, plain, rfl, rfl⟩ | ⟨rfl, rfl⟩
  · refine ⟨rfl, spaces, ':' :: names, _, blank, .inr ⟨names, ?_, rfl⟩, by simp, tails⟩
    simpa using plain
  · exact ⟨rfl, spaces, [], _, blank, .inl rfl, by simp, tails⟩

theorem EndsRecord.exists_leads (ends : EndsRecord text) :
    ∃ rest, Leads recordEnd text captures rest captures := by
  obtain ⟨spaces, bases, tail, blank, isBases, rfl, tails⟩ := ends
  have ended : ∃ rest, Leads (.either (literal "\x7b") .atEnd) tail captures rest captures := by
    rcases tails with rfl | ⟨rest, rfl⟩
    · exact ⟨[], .right .atEnd⟩
    · exact ⟨rest, .left (leads_literal_iff.mpr ⟨rfl, rfl⟩)⟩
  obtain ⟨rest, ended⟩ := ended
  have based : Leads (optional (.seq (literal ":") (without ['{', ';']))) (bases ++ tail) captures
      tail captures := by
    rcases isBases with rfl | ⟨names, plain, rfl⟩
    · exact leads_optional_iff.mpr (.inr ⟨rfl, rfl⟩)
    · refine leads_optional_iff.mpr (.inl (.seq (leads_literal_iff.mpr ⟨rfl, rfl⟩) (.run names ?_)))
      simpa using plain
  refine ⟨rest, ?_⟩
  rw [List.append_assoc]
  exact .seq (.run spaces blank) (.seq based (.seq ended .nothing))

theorem IsBases.brace_notMem {bases : List Char} (isBases : IsBases bases) : '{' ∉ bases := by
  rcases isBases with rfl | ⟨names, plain, rfl⟩
  · exact List.not_mem_nil
  · rw [List.mem_cons]
    rintro (same | member)
    · exact absurd same (by decide)
    · exact (plain _ member).1 rfl

/-- Blanks at the end belong to the blanks or to the bases. -/
theorem endsRecord_of_append {gap spaces bases : List Char}
    (blank : ∀ c ∈ spaces, isBlank c = true) (isBases : IsBases bases)
    (split : text ++ gap = spaces ++ bases) : EndsRecord text := by
  rcases List.append_eq_append_iff.mp split with ⟨more, rfl, _⟩ | ⟨front, rfl, rfl⟩
  · refine ⟨text, [], [], fun c member => blank c (List.mem_append_left _ member), .inl rfl, ?_,
      .inl rfl⟩
    simp
  · refine ⟨spaces, front, [], blank, ?_, by simp, .inl rfl⟩
    cases front with
    | nil => exact .inl rfl
    | cons c front =>
        rcases isBases with none | ⟨names, plain, colon⟩
        · cases none
        · obtain ⟨rfl, rfl⟩ := List.cons.inj colon
          exact .inr ⟨front, fun c member => plain c (List.mem_append_left _ member), rfl⟩

theorem endsRecord_append_iff (opening : IsOpening ending) :
    EndsRecord (text ++ ending) ↔ EndsRecord text := by
  obtain ⟨gap, gapBlank, rfl⟩ := opening
  have noBrace {spaces : List Char} (blank : ∀ c ∈ spaces, isBlank c = true) : '{' ∉ spaces :=
    fun member => absurd (blank _ member) (by decide)
  constructor
  · rintro ⟨spaces, bases, tail, blank, isBases, split, tails⟩
    have plain : '{' ∉ spaces ++ bases := by
      rw [List.mem_append, not_or]
      exact ⟨noBrace blank, isBases.brace_notMem⟩
    rcases tails with rfl | ⟨rest, rfl⟩
    · refine absurd ?_ plain
      rw [← List.append_nil (spaces ++ bases), ← split]
      simp
    · by_cases within : '{' ∈ text
      · obtain ⟨front, more, rfl, frontPlain⟩ := List.eq_append_cons_of_mem within
        have same : front = spaces ++ bases := by
          rw [List.append_assoc, List.cons_append] at split
          exact front_eq_of_append_cons_eq split frontPlain plain
        exact ⟨spaces, bases, '{' :: more, blank, isBases, by rw [same], .inr ⟨more, rfl⟩⟩
      · have same : text ++ gap = spaces ++ bases := by
          rw [← List.append_assoc] at split
          refine front_eq_of_append_cons_eq split ?_ plain
          rw [List.mem_append, not_or]
          exact ⟨within, noBrace gapBlank⟩
        exact endsRecord_of_append blank isBases same
  · rintro ⟨spaces, bases, tail, blank, isBases, rfl, rfl | ⟨rest, rfl⟩⟩
    · rcases isBases with rfl | ⟨names, plain, rfl⟩
      · refine ⟨spaces ++ gap, [], ['{'], ?_, .inl rfl, by simp, .inr ⟨[], rfl⟩⟩
        intro c member
        exact (List.mem_append.mp member).elim (blank c) (gapBlank c)
      · refine ⟨spaces, ':' :: (names ++ gap), ['{'], blank, .inr ⟨names ++ gap, ?_, rfl⟩, by simp,
          .inr ⟨[], rfl⟩⟩
        intro c member
        rcases List.mem_append.mp member with named | within
        · exact plain c named
        · constructor
          · rintro rfl
            exact absurd (gapBlank _ within) (by decide)
          · rintro rfl
            exact absurd (gapBlank _ within) (by decide)
    · exact ⟨spaces, bases, '{' :: (rest ++ (gap ++ ['{'])), blank, isBases, by simp,
        .inr ⟨_, rfl⟩⟩

theorem recordEnd_matchThen [Decidable (EndsRecord text)] :
    recordEnd.matchThen text captures (fun _ captures => some captures) =
      if EndsRecord text then some captures else none := by
  split
  next ends =>
    obtain ⟨rest, leads⟩ : ∃ rest, Leads recordEnd text captures rest captures := ends.exists_leads
    have matched : (recordEnd.matchThen text captures fun _ captures => some captures).isSome =
        true := leads.isSome_matchThen rfl
    obtain ⟨result, found⟩ := Option.isSome_iff_exists.mp matched
    obtain ⟨rest, after, way, same⟩ := exists_leads_of_matchThen found
    obtain ⟨rfl, _⟩ := endsRecord_of_leads way
    rw [found, ← same]
  next endless =>
    refine matchThen_eq_none fun rest after leads => ?_
    exact absurd (endsRecord_of_leads leads).2 endless

theorem IsOpening.recordLine_match? (opening : IsOpening ending) (text : List Char) :
    recordLine.match? (text ++ ending) = recordLine.match? text := by
  classical
  have same (rest : List Char) (captures : Captures) :
      recordEnd.matchThen (rest ++ ending) captures (fun _ captures => some captures) =
        recordEnd.matchThen rest captures (fun _ captures => some captures) := by
    rw [recordEnd_matchThen, recordEnd_matchThen, endsRecord_append_iff opening]
  have named := ((stopsBefore_several opening.rejects_word).capture 2).ignores same
  have ignores : Ignores ending (recordLine.matchThen · · fun _ captures => some captures)
      (recordLine.matchThen · · fun _ captures => some captures) :=
    .before (.before (.before (.before named rfl) rfl) rfl) rfl
  exact ignores.same text []

/-! ## Other lines -/

/-- After the last semicolon of an alias stand only blanks. -/
theorem exists_of_leads_typedefLine (leads : Leads typedefLine text captures rest after) :
    ∃ front spaces, text = front ++ ';' :: spaces ∧ ∀ c ∈ spaces, isBlank c = true := by
  simp only [typedefLine, blanks, gap, name, sequence_cons, sequence_nil, leads_seq_iff,
    leads_literal_iff, leads_several_iff, leads_run_iff, leads_capture_iff, leads_atEnd_iff,
    leads_nothing_iff] at leads
  obtain ⟨_, _, ⟨rfl, rfl⟩, _, _, ⟨first, -, -, rfl, rfl⟩, _, _, ⟨second, -, rfl, rfl⟩, _, _,
    ⟨third, _, rfl, -, rfl⟩, _, _, ⟨fourth, -, rfl, rfl⟩, _, _, ⟨rfl, rfl⟩, _, _,
    ⟨spaces, blank, rfl, rfl⟩, _, _, ⟨rfl, rfl, rfl⟩, -⟩ := leads
  refine ⟨"typedef".toList ++ (first ++ (second ++ (third ++ fourth))), spaces, ?_, blank⟩
  simp

namespace IsOpening

/-- A line with a brace at its end is no alias. -/
theorem typedefLine_match? (opening : IsOpening ending) (text : List Char) :
    typedefLine.match? (text ++ ending) = none := by
  obtain ⟨gap, _, rfl⟩ := opening
  refine Option.eq_none_iff_forall_ne_some.mpr fun result found => ?_
  obtain ⟨rest, leads⟩ := exists_leads_of_match? found
  obtain ⟨front, spaces, split, blank⟩ := exists_of_leads_typedefLine leads
  have last : some '{' = (';' :: spaces).getLast? := by
    have same := congrArg List.getLast? split
    rw [List.getLast?_append_cons] at same
    rw [← same, ← List.append_assoc, List.getLast?_concat]
  have member := List.mem_of_getLast? last.symm
  rcases List.mem_cons.mp member with semicolon | space
  · exact absurd semicolon (by decide)
  · exact absurd (blank _ space) (by decide)

theorem mem_cases (opening : IsOpening ending) {c : Char} (member : c ∈ ending) :
    isBlank c = true ∨ c = '{' := by
  obtain ⟨gap, blank, rfl⟩ := opening
  rcases List.mem_append.mp member with inGap | last
  · exact .inl (blank c inGap)
  · exact .inr (List.mem_singleton.mp last)

theorem append (opening : IsOpening ending) {spaces : List Char}
    (blank : ∀ c ∈ spaces, isBlank c = true) : IsOpening (spaces ++ ending) := by
  obtain ⟨gap, gapBlank, rfl⟩ := opening
  refine ⟨spaces ++ gap, ?_, (List.append_assoc ..).symm⟩
  intro c member
  exact (List.mem_append.mp member).elim (blank c) (gapBlank c)

theorem scopeLine_match? (opening : IsOpening ending) : scopeLine.match? ending = none := by
  have noLetter {c : Char} (letter : isBlank c = false ∧ c ≠ '{') : c ∉ ending := by
    intro member
    rcases opening.mem_cases member with blank | brace
    · rw [letter.1] at blank
      cases blank
    · exact letter.2 brace
  refine Option.eq_none_iff_forall_ne_some.mpr fun result found => ?_
  obtain ⟨rest, leads⟩ := exists_leads_of_match? found
  simp only [scopeLine, blanks, sequence_cons, sequence_nil, leads_seq_iff, leads_either_iff,
    leads_literal_iff, leads_run_iff] at leads
  obtain ⟨_, _, ⟨spaces, -, rfl, rfl⟩, _, _, words, -⟩ := leads
  rcases words with ⟨_, _, ⟨rfl, rfl⟩, -⟩ | ⟨_, _, ⟨rfl, rfl⟩, -⟩
  · exact noLetter (c := 'n') (by decide) (by simp)
  · exact noLetter (c := 'x') (by decide) (by simp)

/-- Marks are found at the beginning of a text with a brace after it just where they are found
without it. -/
theorem isPrefixOf_append (opening : IsOpening ending) {marks : List Char}
    (solid : ∀ c ∈ marks, isBlank c = false ∧ c ≠ '{') (text : List Char) :
    marks.isPrefixOf (text ++ ending) = marks.isPrefixOf text := by
  rw [Bool.eq_iff_iff, List.isPrefixOf_iff_prefix, List.isPrefixOf_iff_prefix]
  constructor
  · rintro ⟨rest, split⟩
    rcases List.append_eq_append_iff.mp split with ⟨more, rfl, _⟩ | ⟨more, rfl, beyond⟩
    · exact List.prefix_append _ _
    · cases more with
      | nil => simp
      | cons c more =>
          obtain ⟨noBlank, noBrace⟩ := solid c (List.mem_append_right _ List.mem_cons_self)
          have within : c ∈ ending := by
            rw [beyond]
            exact List.mem_cons_self
          rcases opening.mem_cases within with blank | brace
          · rw [noBlank] at blank
            cases blank
          · exact absurd brace noBrace
  · exact fun isPrefix => isPrefix.trans (List.prefix_append _ _)

theorem trimEnd_append (opening : IsOpening ending) (text : List Char) :
    trimEnd (text ++ ending) = text ++ ending := by
  obtain ⟨gap, _, rfl⟩ := opening
  have solid : isBlank '{' = false := by decide
  rw [trimEnd, dropEndWhile, ← List.append_assoc, List.reverse_append, List.reverse_singleton,
    List.singleton_append, List.dropWhile_cons_of_neg (by simp [solid])]
  simp

theorem isTrivia_append (opening : IsOpening ending) {c : Char} (member : c ∈ text)
    (solid : isBlank c = false) : isTrivia (text ++ ending) = isTrivia text := by
  obtain ⟨spaces, blank, split⟩ := exists_trimEnd (trimStart text)
  have longer : trim (text ++ ending) = trim text ++ (spaces ++ ending) := by
    rw [trim, trimStart_append member solid, trimEnd_append opening, trim, ← List.append_assoc,
      ← split]
  have within : c ∈ trim text := by
    have started := mem_trimStart member solid
    rw [split, List.mem_append] at started
    rcases started with kept | dropped
    · exact kept
    · rw [blank c dropped] at solid
      cases solid
  have some : (trim text).isEmpty = false := by
    rw [← Bool.not_eq_true, List.isEmpty_iff]
    exact List.ne_nil_of_mem within
  have someLonger : (trim text ++ (spaces ++ ending)).isEmpty = false := by
    rw [← Bool.not_eq_true, List.isEmpty_iff]
    exact List.append_ne_nil_of_left_ne_nil (List.ne_nil_of_mem within) _
  have opens := opening.append blank
  rw [isTrivia, isTrivia, longer, some, someLonger,
    opens.isPrefixOf_append (List.all_iff_forall_prop.mp (by decide)),
    opens.isPrefixOf_append (List.all_iff_forall_prop.mp (by decide)),
    opens.isPrefixOf_append (List.all_iff_forall_prop.mp (by decide))]

/-- The line that follows a text begins with a brace or not, whatever is put to its end. -/
theorem begins_append {c : Char} (member : c ∈ text) (solid : isBlank c = false)
    (ending : List Char) :
    ['{'].isPrefixOf (trimStart (text ++ ending)) = ['{'].isPrefixOf (trimStart text) := by
  rw [trimStart_append member solid]
  cases started : trimStart text with
  | nil => exact absurd started (List.ne_nil_of_mem (mem_trimStart member solid))
  | cons first rest => rfl

/-- Blanks and a brace open one brace. -/
theorem advance (opening : IsOpening ending) : Braces.start.advance ending = ⟨1, false⟩ := by
  obtain ⟨gap, blank, rfl⟩ := opening
  rw [Braces.advance]
  induction gap with
  | nil => rfl
  | cons c gap induction =>
      obtain ⟨cBlank, blank⟩ := List.forall_mem_cons.mp blank
      obtain ⟨next, rest, more⟩ := List.exists_cons_of_ne_nil
        (List.append_ne_nil_of_right_ne_nil gap (List.cons_ne_nil '{' []))
      have different (mark : Char) (solid : isBlank mark = false) : c ≠ mark := by
        rintro rfl
        rw [solid] at cBlank
        cases cBlank
      rw [more] at induction
      rw [List.cons_append, more, Braces.advanceFrom]
      simpa [Braces.start, different '"' (by decide), different '\'' (by decide),
        different '`' (by decide), different '/' (by decide), different '{' (by decide),
        different '}' (by decide)] using induction blank

end IsOpening

end CodeAtlas.Source.CFamily
