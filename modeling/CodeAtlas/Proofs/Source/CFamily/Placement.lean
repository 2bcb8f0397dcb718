import CodeAtlas.Proofs.Source.CFamily.Header
import CodeAtlas.Proofs.Source.CFamily.Reading
import Mathlib

/-!
# Where the brace of a record stands

The brace that opens the body of a record may stand at the end of its line or on a line of its own.
On a line of its own it closes the record again for the reader, so the members of the body are left
out: both texts have the same declarations exactly if the body declares no members.
-/

namespace CodeAtlas.Source.CFamily

open CodeAtlas.Text CodeAtlas.Text.Pattern

/-- A line that a brace may be put to: the brace is the one that the line opens, and the line is
neither blank, nor an include, nor the line of a scope, nor an alias. -/
structure IsHeader (header ending : List Char) : Prop where
  opening : IsOpening ending
  closed : Braces.start.advance header = .start
  opens : Braces.start.advance (header ++ ending) = ⟨1, false⟩
  solid : ∃ c ∈ header, isBlank c = false
  noInclude : includeLine.match? header = none
  noScope : scopeLine.match? header = none
  noScopeWithBrace : scopeLine.match? (header ++ ending) = none
  noAlias : typedefLine.match? header = none

/-- A line that ends every body: it stands outside of all braces, and is read as code. -/
def endsBody (braces : Braces) (line : List Char) : Bool :=
  (scopeLine.match? line).isNone && (includeLine.match? line).isNone && braces.depth = 0

/-- The names that a line of a body declares. -/
def lineNames (kind : InterfaceKind) (braces : Braces) (line : List Char) : List (List Char) :=
  if (scopeLine.match? line).isNone && (includeLine.match? line).isNone && braces.depth = 1 then
    Reading.membersOf kind line
  else []

/-- The names that the lines of a body declare, from the line after its brace on. -/
def bodyNames (kind : InterfaceKind) (braces : Braces) : List (List Char) → List (List Char)
  | [] => []
  | line :: rest =>
      if endsBody braces line then []
      else lineNames kind braces line ++ bodyNames kind (bracesAfterLine braces line) rest

/-- The kind of the record that a line begins. -/
def recordOn? (language : Language) (line : List Char) : Option InterfaceKind :=
  (Reading.outside? language line).bind fun found =>
    if found.isRecord then some found.kind else none

/-! ## The body -/

/-- The entry with further members. -/
def appendTo (more : List String) (entry : Entry) : Entry :=
  { entry with members := entry.members ++ more }

/-- One reading collects the members of a body, and the other one does not. -/
structure InBody (position : Nat) (entry : Entry) (found : List String)
    (first second : Reading) : Prop where
  braces : first.braces = second.braces
  entries : entriesOf false first.declarations =
    (entriesOf false second.declarations).modify position (appendTo found)
  here : (entriesOf false second.declarations)[position]? = some entry
  firstOpened : first.opened = some position
  secondOpened : second.opened = none

namespace InBody

variable {position : Nat} {entry : Entry} {found : List String} {first second : Reading}
  {language : Language} {raw next : List Char}

theorem ahead (inBody : InBody position entry found first second) :
    Ahead false position entry.members.length found first second where
  braces := inBody.braces
  entries := by
    rw [inBody.entries]
    refine modify_eq_of_eq fun other here => ?_
    rw [inBody.here] at here
    cases here
    simp [appendTo, Entry.insert]
  early := by
    intro other here
    rw [inBody.here] at here
    cases here
    exact Nat.le_refl _
  within := by
    obtain ⟨within, _⟩ := List.getElem?_eq_some_iff.mp inBody.here
    rw [length_entriesOf] at within
    exact .inr within
  lines := nofun

theorem advancing (inBody : InBody position entry found first second) :
    InBody position entry found (first.advancing raw) (second.advancing raw) :=
  ⟨congrArg (Braces.advance · raw) inBody.braces, inBody.entries, inBody.here, inBody.firstOpened,
    inBody.secondOpened⟩

theorem passing {firstBefore secondBefore : Reading}
    (inBody : InBody position entry found first second) :
    InBody position entry found (firstBefore.passing raw first) (secondBefore.passing raw second) :=
  ⟨inBody.braces, inBody.entries, inBody.here, inBody.firstOpened, inBody.secondOpened⟩

theorem withImport {captures : Captures} (inBody : InBody position entry found first second) :
    InBody position entry found (first.withImport captures) (second.withImport captures) :=
  ⟨inBody.braces, inBody.entries, inBody.here, inBody.firstOpened, inBody.secondOpened⟩

theorem takeMember (inBody : InBody position entry found first second) :
    InBody position entry (found ++ (Reading.membersOf entry.kind raw).map String.ofList)
      (first.takeMember raw) (second.takeMember raw) := by
  rw [Reading.takeMember_of_some inBody.firstOpened, Reading.takeMember_of_none inBody.secondOpened]
  refine ⟨inBody.braces, ?_, inBody.here, inBody.firstOpened, inBody.secondOpened⟩
  have modified : entriesOf false (first.declarations.modify position (Reading.extendWith raw)) =
      (entriesOf false first.declarations).modify position (extendEntry raw) :=
    map_modify fun _ => rfl
  rw [modified, inBody.entries, List.modify_modify_eq]
  refine modify_eq_of_eq fun other here => ?_
  rw [inBody.here] at here
  cases here
  simp [appendTo, extendEntry]

theorem take (inBody : InBody position entry found first second)
    (goesOn : endsBody second.braces raw = false) :
    InBody position entry (found ++ (lineNames entry.kind second.braces raw).map String.ofList)
      (first.take language raw next) (second.take language raw next) := by
  have nothing (none : lineNames entry.kind second.braces raw = []) :
      found ++ (lineNames entry.kind second.braces raw).map String.ofList = found := by
    rw [none, List.map_nil, List.append_nil]
  cases scope : scopeLine.match? raw with
  | some captures =>
      have isScope : (scopeLine.match? raw).isSome = true := by rw [scope]; rfl
      rw [nothing (by simp [lineNames, scope]), Reading.take_of_scope isScope,
        Reading.take_of_scope isScope]
      exact inBody.passing
  | none =>
      cases included : includeLine.match? raw with
      | some captures =>
          rw [nothing (by simp [lineNames, included]), Reading.take_of_include scope included,
            Reading.take_of_include scope included]
          exact inBody.advancing.withImport.passing
      | none =>
          have depth : first.braces.depth = second.braces.depth := by rw [inBody.braces]
          have notOutside : second.braces.depth ≠ 0 := by
            simpa [endsBody, scope, included] using goesOn
          rcases Nat.lt_or_eq_of_le (Nat.one_le_iff_ne_zero.mpr notOutside) with deep | inside
          · rw [nothing (by simp [lineNames, Nat.ne_of_gt deep]),
              Reading.take_of_deep scope included (depth ▸ deep),
              Reading.take_of_deep scope included deep]
            exact inBody.advancing.passing
          · have names : lineNames entry.kind second.braces raw =
                Reading.membersOf entry.kind raw := by
              simp [lineNames, scope, included, ← inside]
            rw [names, Reading.take_of_inside scope included (depth.trans inside.symm),
              Reading.take_of_inside scope included inside.symm]
            exact inBody.advancing.takeMember.passing

/-- The names of a body are all that the first reading is ahead in the end. -/
theorem readLines (inBody : InBody position entry found first second) (language : Language)
    (lines : List (List Char)) :
    Ahead false position entry.members.length
      (found ++ (bodyNames entry.kind second.braces lines).map String.ofList)
      (CFamily.readLines language first lines) (CFamily.readLines language second lines) := by
  induction lines generalizing first second found with
  | nil =>
      rw [bodyNames, List.map_nil, List.append_nil]
      exact inBody.ahead
  | cons line lines induction =>
      rw [bodyNames, CFamily.readLines, CFamily.readLines]
      cases ends : endsBody second.braces line with
      | true =>
          obtain ⟨⟨noScope, noInclude⟩, outside⟩ : ((scopeLine.match? line).isNone = true ∧
              (includeLine.match? line).isNone = true) ∧ second.braces.depth = 0 := by
            simpa [endsBody] using ends
          have closed : AheadOpen false position entry.members.length found
              (first.take language line (lines.headD []))
              (second.take language line (lines.headD [])) :=
            .of_outside inBody.ahead (Option.isNone_iff_eq_none.mp noScope)
              (Option.isNone_iff_eq_none.mp noInclude) outside
          rw [if_pos rfl, List.map_nil, List.append_nil]
          exact (closed.readLines lines).toAhead
      | false =>
          have taken : InBody position entry
              (found ++ (lineNames entry.kind second.braces line).map String.ofList)
              (first.take language line (lines.headD []))
              (second.take language line (lines.headD [])) := inBody.take ends
          have onwards := induction taken
          rw [Reading.braces_take] at onwards
          rw [if_neg Bool.false_ne_true, List.map_append, ← List.append_assoc]
          exact onwards

end InBody

/-! ## The header -/

variable {language : Language} {header ending brace : List Char} {reading : Reading}

/-- With and without the brace a header declares the same. -/
theorem IsHeader.outside? (isHeader : IsHeader header ending) :
    (Reading.outside? language (header ++ ending)).map (fun f => (f.name, f.kind, f.isRecord)) =
      (Reading.outside? language header).map (fun f => (f.name, f.kind, f.isRecord)) := by
  obtain ⟨c, member, solid⟩ := isHeader.solid
  rw [Reading.outside?, Reading.outside?, isHeader.opening.isTrivia_append member solid]
  split
  · rfl
  rw [Reading.found?, Reading.found?, isHeader.opening.defineLine_match?,
    isHeader.opening.recordLine_match?, isHeader.opening.usingLine_match?,
    isHeader.opening.functionLine_match?, isHeader.noAlias,
    isHeader.opening.typedefLine_match?]
  cases defineLine.match? header with
  | some captures => rfl
  | none =>
      cases recordLine.match? header with
      | some captures =>
          simp only [Reading.foundRecord?]
          split <;> rfl
      | none =>
          cases (usingLine.match? header).or none with
          | some captures => rfl
          | none =>
              cases functionLine.match? header with
              | some captures =>
                  simp only [Reading.foundFunction?]
                  split <;> rfl
              | none => rfl

/-- A line with nothing but a brace declares nothing. -/
theorem IsOpening.outside? (opening : IsOpening brace) :
    Reading.outside? language brace = none := by
  have noAlias : typedefLine.match? brace = none := opening.typedefLine_match? []
  have define : defineLine.match? brace = none :=
    (opening.defineLine_match? []).trans (by cbv)
  have record : recordLine.match? brace = none :=
    (opening.recordLine_match? []).trans (by cbv)
  have used : usingLine.match? brace = none := (opening.usingLine_match? []).trans (by cbv)
  have function : functionLine.match? brace = none :=
    (opening.functionLine_match? []).trans (by cbv)
  rw [Reading.outside?, Reading.found?, define, record, used, noAlias, function, Option.none_or]
  exact ite_self _

namespace Reading

variable {next other : List Char}

def withBraces (reading : Reading) (braces : Braces) : Reading := { reading with braces }

theorem declarations_addOnce_withBraces {braces : Braces} {declaration : Declaration} :
    ((reading.withBraces braces).addOnce declaration).1.declarations =
      (reading.addOnce declaration).1.declarations := by
  simp only [addOnce, withBraces]
  split <;> rfl

theorem declarations_putAll_withBraces {braces : Braces} (found : Option Found) :
    ((reading.withBraces braces).putAll next found).declarations =
      (reading.putAll other found).declarations := by
  cases found with
  | none => rfl
  | some found =>
      rw [putAll, putAll, put, put]
      split
      · exact declarations_addOnce_withBraces
      · exact declarations_addOnce_withBraces

/-- The place where a declaration is added holds one of its kind. -/
theorem exists_entry_addOnce (reading : Reading) (declaration : Declaration) :
    ∃ entry, (entriesOf false (reading.addOnce declaration).1.declarations)[
        (reading.addOnce declaration).2]? = some entry ∧ entry.kind = declaration.kind := by
  rw [addOnce]
  cases found : reading.declarations.findIdx? fun other =>
      other.kind == declaration.kind && other.name == declaration.name with
  | some place =>
      obtain ⟨within, same, _⟩ := List.findIdx?_eq_some_iff_getElem.mp found
      refine ⟨entryOf false reading.declarations[place], ?_, ?_⟩
      · simp [entriesOf, within]
      · simp only [Bool.and_eq_true, beq_iff_eq] at same
        exact same.1
  | none =>
      refine ⟨entryOf false declaration, ?_, rfl⟩
      simp [entriesOf]

/-- Inside of one brace a record opens its body, and nothing else does. -/
theorem opened_putAll (inside : reading.braces.depth = 1) (closed : reading.opened = none)
    (found : Option Found) :
    (reading.putAll next found).opened = none ∧
        (found.bind fun f => if f.isRecord then some f.kind else none) = none ∨
    ∃ position entry, (reading.putAll next found).opened = some position ∧
      (entriesOf false (reading.putAll next found).declarations)[position]? = some entry ∧
      (found.bind fun f => if f.isRecord then some f.kind else none) = some entry.kind := by
  cases found with
  | none => exact .inl ⟨closed, rfl⟩
  | some found =>
      rw [putAll, put]
      cases record : found.isRecord with
      | false =>
          rw [if_neg Bool.false_ne_true, opened_addOnce]
          exact .inl ⟨closed, by simp [record]⟩
      | true =>
          have isOpen : reading.opens next = true := by simp [opens, inside]
          obtain ⟨entry, here, kind⟩ := reading.exists_entry_addOnce
            (reading.declaration found.name found.kind found.signature found.detail)
          refine .inr ⟨_, entry, ?_, here, ?_⟩
          · rw [if_pos rfl, isOpen, if_pos rfl]
          · rw [kind]
            simp [record, declaration]

end Reading

theorem IsOpening.includeLine_eq_none (opening : IsOpening brace) :
    includeLine.match? brace = none :=
  (opening.includeLine_match? []).trans (by cbv)

/-- A reading inside of the brace of a header, with what the header declares. -/
def Reading.underHeader (reading : Reading) (language : Language) (header next : List Char) :
    Reading :=
  (reading.closing.withBraces ⟨1, false⟩).putAll next (Reading.outside? language header)

/-- A header with its brace opens the body of what it declares. -/
theorem take_header_of_brace_atEnd (language : Language) (isHeader : IsHeader header ending)
    (topLevel : reading.braces = .start) (next : List Char) :
    (reading.take language (header ++ ending) next).braces = ⟨1, false⟩ ∧
      (reading.take language (header ++ ending) next).opened =
        (reading.underHeader language header next).opened ∧
      entriesOf false (reading.take language (header ++ ending) next).declarations =
        entriesOf false (reading.underHeader language header next).declarations := by
  have outside : reading.braces.depth = 0 := by rw [topLevel]; rfl
  have inBrace : (reading.advancing (header ++ ending)).closing =
      reading.closing.withBraces ⟨1, false⟩ := by
    simp only [Reading.advancing, Reading.closing, Reading.withBraces, topLevel, isHeader.opens]
  have taken : reading.take language (header ++ ending) next = reading.passing (header ++ ending)
      ((reading.closing.withBraces ⟨1, false⟩).putAll next
        (Reading.outside? language (header ++ ending))) := by
    rw [← inBrace]
    exact Reading.take_of_outside isHeader.noScopeWithBrace
      ((isHeader.opening.includeLine_match? header).trans isHeader.noInclude) outside
  -- Both declare the same, so they differ in the text of the line only.
  have alike : AheadOpen false 0 0 []
      ((reading.closing.withBraces ⟨1, false⟩).putAll next
        (Reading.outside? language (header ++ ending)))
      (reading.underHeader language header next) :=
    (AheadOpen.refl _).putAll isHeader.outside?
  have entries := alike.entries
  rw [Entry.insert_nil, List.modify_id] at entries
  rw [taken]
  exact ⟨Reading.braces_putAll _, alike.opened, entries⟩

/-- The line of a brace below its header closes what the header has opened. -/
theorem take_header_of_brace_below (language : Language) (isHeader : IsHeader header ending)
    (isBrace : IsOpening brace) (topLevel : reading.braces = .start) (next : List Char) :
    ((reading.take language header brace).take language brace next).braces = ⟨1, false⟩ ∧
      ((reading.take language header brace).take language brace next).opened = none ∧
      ((reading.take language header brace).take language brace next).declarations =
        (reading.underHeader language header next).declarations := by
  have outside : reading.braces.depth = 0 := by rw [topLevel]; rfl
  have headerTaken : reading.take language header brace = reading.passing header
      ((reading.advancing header).closing.putAll brace (Reading.outside? language header)) :=
    Reading.take_of_outside isHeader.noScope isHeader.noInclude outside
  have headerBraces : (reading.take language header brace).braces = .start := by
    rw [Reading.braces_take, bracesAfterLine, isHeader.noScope, topLevel]
    exact isHeader.closed
  have taken : (reading.take language header brace).take language brace next =
      (reading.take language header brace).passing brace
        ((reading.take language header brace).advancing brace).closing := by
    rw [Reading.take_of_outside isBrace.scopeLine_match? isBrace.includeLine_eq_none
      (by rw [headerBraces]; rfl), isBrace.outside?]
    rfl
  rw [taken]
  refine ⟨(congrArg (Braces.advance · brace) headerBraces).trans isBrace.advance, rfl, ?_⟩
  show (reading.take language header brace).declarations = _
  rw [headerTaken]
  exact (Reading.declarations_putAll_withBraces _).symm

/-- After its header the body of a record is open only where the brace stands at the end of that
line. -/
theorem take_header (isHeader : IsHeader header ending) (isBrace : IsOpening brace)
    (topLevel : reading.braces = .start) (next : List Char) :
    (recordOn? language header = none ∧
      AheadOpen false 0 0 [] (reading.take language (header ++ ending) next)
        ((reading.take language header brace).take language brace next)) ∨
    ∃ position entry, recordOn? language header = some entry.kind ∧
      ((reading.take language header brace).take language brace next).braces = ⟨1, false⟩ ∧
      InBody position entry [] (reading.take language (header ++ ending) next)
        ((reading.take language header brace).take language brace next) := by
  obtain ⟨firstBraces, firstOpened, firstEntries⟩ :=
    take_header_of_brace_atEnd language isHeader topLevel next
  obtain ⟨secondBraces, secondOpened, declarations⟩ :=
    take_header_of_brace_below language isHeader isBrace topLevel next
  have braces := firstBraces.trans secondBraces.symm
  have entries := firstEntries.trans (congrArg (entriesOf false) declarations.symm)
  have inside : (reading.closing.withBraces ⟨1, false⟩).braces.depth = 1 := rfl
  rcases Reading.opened_putAll inside rfl (Reading.outside? language header) with
    ⟨closed, noRecord⟩ | ⟨position, entry, opened, here, record⟩
  · refine .inl ⟨noRecord, ⟨braces, ?_, fun _ _ => Nat.zero_le _, .inl ⟨rfl, rfl⟩, ?_⟩, ?_⟩
    · rw [Entry.insert_nil, List.modify_id]
      exact entries
    · exact fun isLined => absurd isLined Bool.false_ne_true
    · exact (firstOpened.trans closed).trans secondOpened.symm
  · refine .inr ⟨position, entry, record, secondBraces, braces, ?_, ?_,
      firstOpened.trans opened, secondOpened⟩
    · have unchanged : appendTo [] = id := by
        funext entry
        simp [appendTo]
      rw [unchanged, List.modify_id]
      exact entries
    · rw [declarations]
      exact here

/-! ## Both placements -/

/-- A brace on a line of its own instead of at the end of a line changes names, kinds and members of
the declarations exactly if a record begins on that line whose body declares members. -/
theorem entries_eq_iff_of_brace_moved {first second : String} {before after : List (List Char)}
    (isFamily : language = .c ∨ language = .cpp) (isHeader : IsHeader header ending)
    (isBrace : IsOpening brace)
    (atEnd : lines first.toList = before ++ (header ++ ending) :: after)
    (below : lines second.toList = before ++ header :: brace :: after)
    (topLevel : before.foldl bracesAfterLine .start = .start) :
    entriesOf false (outline language first).declarations =
        entriesOf false (outline language second).declarations ↔
      ∀ kind, recordOn? language header = some kind → bodyNames kind ⟨1, false⟩ after = [] := by
  obtain ⟨c, member, solid⟩ := isHeader.solid
  have reading : readBefore language (header ++ ending) .start before =
      readBefore language header .start before :=
    readBefore_congr (IsOpening.begins_append member solid ending) _ _
  have braces : (readBefore language header .start before).braces = .start :=
    (braces_readBefore _ _).trans topLevel
  rw [outline_declarations isFamily, outline_declarations isFamily, atEnd, below, readLines_append,
    readLines_append, reading, readLines, readLines, readLines]
  rcases take_header isHeader isBrace braces (after.headD []) with
    ⟨noRecord, ahead⟩ | ⟨position, entry, record, secondBraces, inBody⟩
  · rw [noRecord]
    exact iff_of_true ((ahead.readLines after).toAhead.entries_eq_iff.mpr rfl)
      fun kind absent => absurd absent.symm (Option.some_ne_none kind)
  · have final := inBody.readLines language after
    rw [secondBraces] at final
    rw [List.headD_cons, final.entries_eq_iff, record]
    simp

theorem isHeader_struct : IsHeader "struct a".toList " \x7b".toList where
  opening := ⟨[' '], List.all_iff_forall_prop.mp (by decide), rfl⟩
  closed := by decide +kernel
  opens := by decide +kernel
  solid := ⟨'a', by decide, by decide⟩
  noInclude := by cbv
  noScope := by cbv
  noScopeWithBrace := by cbv
  noAlias := by cbv

theorem entries_eq_iff_struct_brace_moved :
    entriesOf false (outline .c "struct a \x7b\nint x;\n\x7d;\n").declarations =
        entriesOf false (outline .c "struct a\n\x7b\nint x;\n\x7d;\n").declarations ↔
      ∀ kind, recordOn? .c "struct a".toList = some kind →
        bodyNames kind ⟨1, false⟩ ["int x;".toList, "\x7d;".toList] = [] := by
  have atEnd : lines "struct a \x7b\nint x;\n\x7d;\n".toList =
      [] ++ ("struct a".toList ++ " \x7b".toList) :: ["int x;".toList, "\x7d;".toList] := by
    decide +kernel
  have below : lines "struct a\n\x7b\nint x;\n\x7d;\n".toList =
      [] ++ "struct a".toList :: "\x7b".toList :: ["int x;".toList, "\x7d;".toList] := by
    decide +kernel
  exact entries_eq_iff_of_brace_moved (.inl rfl) isHeader_struct
    ⟨[], List.forall_mem_nil _, rfl⟩ atEnd below rfl

/-- Below its header the brace costs a structure its member. -/
theorem brace_moved_loses_member :
    entriesOf false (outline .c "struct a \x7b\nint x;\n\x7d;\n").declarations =
        [⟨"a", .struct, ["x"], none⟩] ∧
      entriesOf false (outline .c "struct a\n\x7b\nint x;\n\x7d;\n").declarations =
        [⟨"a", .struct, [], none⟩] := by
  constructor
  · cbv
  · cbv

end CodeAtlas.Source.CFamily
