import CodeAtlas.Source.Java
import CodeAtlas.Proofs.Source.Entry

/-!
# Comments of Java files

A line inside of a comment is matched like any other one.  It leaves what is read alone exactly if
nothing is found on it at the depth of the comment.
-/

namespace CodeAtlas.Source.Java

open CodeAtlas.Text CodeAtlas.Text.Pattern

namespace Reading

/-! ## What a line adds -/

/-- What is found on a line. -/
inductive Found
  | imported (captures : Captures)
  | declared (captures : Captures)
  | member (name : List Char)

/-- What is found by a match of the pattern of methods. -/
def foundMethod? (raw : List Char) (captures : Captures) : Option Found :=
  if statementWords.contains (part captures 1) || "//".toList.isPrefixOf (trimStart raw) then none
  else some (.member (part captures 1))

/-- What is found on a line at a depth. -/
def found? (depth : Nat) (raw : List Char) : Option Found :=
  if depth = 0 then
    match importLine.match? raw with
    | some captures => some (.imported captures)
    | none => (typeLine.match? raw).map .declared
  else if depth = 1 then
    (methodLine.match? raw).bind (foundMethod? raw)
  else none

/-- Add what is found on a line. -/
def put (reading : Reading) (raw : List Char) : Option Found → Reading
  | some (.imported captures) => reading.addImport captures
  | some (.declared captures) => reading.addType raw captures
  | some (.member name) =>
      { reading with declarations := withMember (String.ofList name) reading.declarations }
  | none => reading

/-- What is left of a line besides what is found on it. -/
def passing (reading : Reading) (raw : List Char) (read : Reading) : Reading :=
  { read with
    count := reading.count + 1
    before := raw :: reading.before
    braces := reading.braces.advance raw }

variable {reading first second : Reading} {raw line other : List Char}

theorem addMethod_eq (captures : Captures) :
    reading.addMethod raw captures = reading.put raw (foundMethod? raw captures) := by
  rw [addMethod, foundMethod?]
  by_cases skipped : (statementWords.contains (part captures 1) ||
      "//".toList.isPrefixOf (trimStart raw)) = true
  · simp only [skipped, if_true]
    split <;> rfl
  · simp only [skipped, Bool.false_eq_true, if_false, put]
    cases reading with
    | mk count before braces imports declarations => cases declarations <;> rfl

theorem take_eq :
    reading.take raw = reading.passing raw (reading.put raw (found? reading.braces.depth raw)) := by
  rw [take, found?]
  split
  · cases importLine.match? raw with
    | some captures => rfl
    | none => cases typeLine.match? raw <;> rfl
  · split
    · cases methodLine.match? raw with
      | none => rfl
      | some captures =>
          simp only [addMethod_eq]
          rfl
    · rfl

theorem braces_foldl (lines : List (List Char)) :
    (lines.foldl take reading).braces = lines.foldl Braces.advance reading.braces :=
  (List.foldl_hom Reading.braces fun _ _ => rfl).symm

/-- How much a reading grows by what is found on a line. -/
def gain (reading : Reading) : Option Found → Nat
  | some (.imported _) | some (.declared _) => 1
  | some (.member _) => if reading.declarations = [] then 0 else 1
  | none => 0

theorem put_of_gain_eq_zero {found : Option Found} (raw : List Char)
    (nothing : reading.gain found = 0) :
    reading.put raw found = reading := by
  match found with
  | some (.imported _) | some (.declared _) => cases nothing
  | some (.member _) =>
      have empty : reading.declarations = [] := by
        by_contra declared
        simp [gain, declared] at nothing
      rw [put, empty, withMember, ← empty]
  | none => rfl

theorem declarations_of_put {found : Option Found}
    (empty : (reading.put raw found).declarations = []) : reading.declarations = [] := by
  match found with
  | some (.imported _) | none => exact empty
  | some (.declared _) => cases empty
  | some (.member _) => exact withMember_eq_nil_iff.mp empty

/-- How much has been found. -/
def size (reading : Reading) : Nat := countFound reading.imports reading.declarations

theorem size_put (found : Option Found) :
    (reading.put raw found).size = reading.size + reading.gain found := by
  match found with
  | some (.imported _) =>
      simp only [put, addImport, size, gain, countFound, List.length_cons]
      omega
  | some (.declared _) =>
      simp only [put, addType, size, gain, countFound_cons, List.length_nil]
  | some (.member _) => exact countFound_withMember
  | none => rfl

/-! ## Two readings -/

/-- Two readings of the same code. -/
structure Alike (first second : Reading) : Prop where
  count : first.count = second.count
  braces : first.braces = second.braces
  imports : first.imports = second.imports
  entries : entriesOf true first.declarations = entriesOf true second.declarations

namespace Alike

theorem put (alike : Alike first second) (found : Option Found) :
    Alike (first.put raw found) (second.put raw found) := by
  match found with
  | some (.imported captures) =>
      refine ⟨alike.count, alike.braces, ?_, alike.entries⟩
      simp only [Reading.put, addImport, alike.count, alike.imports]
  | some (.declared captures) =>
      refine ⟨alike.count, alike.braces, alike.imports, ?_⟩
      simp only [Reading.put, addType, entriesOf, List.map_cons, entryOf, alike.count]
      exact congrArg _ alike.entries
  | some (.member name) =>
      exact ⟨alike.count, alike.braces, alike.imports, entriesOf_withMember alike.entries⟩
  | none => exact alike

theorem passing {firstBefore secondBefore : Reading} (alike : Alike first second)
    (counts : firstBefore.count = secondBefore.count)
    (braces : firstBefore.braces.advance line = secondBefore.braces.advance other) :
    Alike (firstBefore.passing line first) (secondBefore.passing other second) :=
  ⟨congrArg (· + 1) counts, braces, alike.imports, alike.entries⟩

theorem take (alike : Alike first second) : Alike (first.take raw) (second.take raw) := by
  rw [take_eq, take_eq, alike.braces]
  exact (alike.put _).passing alike.count (by rw [alike.braces])

theorem foldl (alike : Alike first second) (lines : List (List Char)) :
    Alike (lines.foldl Reading.take first) (lines.foldl Reading.take second) :=
  List.foldl_rel alike fun _ _ _ _ onwards => onwards.take

end Alike

/-- The first reading has found more, and will not find less. -/
structure Beyond (first second : Reading) : Prop where
  braces : first.braces = second.braces
  declared : first.declarations = [] → second.declarations = []
  more : second.size < first.size

namespace Beyond

theorem gain_le (beyond : Beyond first second) (found : Option Found) :
    second.gain found ≤ first.gain found := by
  match found with
  | some (.imported _) | some (.declared _) | none => exact Nat.le_refl _
  | some (.member _) =>
      rw [gain, gain]
      split
      next => exact Nat.zero_le _
      next some => exact Nat.le_of_eq (if_neg fun none => some (beyond.declared none)).symm

theorem declared_put (beyond : Beyond first second) (found : Option Found)
    (empty : (first.put raw found).declarations = []) :
    (second.put raw found).declarations = [] := by
  match found with
  | some (.imported _) | none => exact beyond.declared empty
  | some (.declared _) => cases empty
  | some (.member _) =>
      exact withMember_eq_nil_iff.mpr
        (beyond.declared (withMember_eq_nil_iff.mp empty))

theorem take (beyond : Beyond first second) : Beyond (first.take raw) (second.take raw) := by
  rw [take_eq, take_eq, beyond.braces]
  have gains := beyond.gain_le (found? second.braces.depth raw)
  refine ⟨congrArg (Braces.advance · raw) beyond.braces, beyond.declared_put _, ?_⟩
  show (second.put _ _).size < (first.put _ _).size
  rw [size_put, size_put]
  exact Nat.add_lt_add_of_lt_of_le beyond.more gains

theorem foldl (beyond : Beyond first second) (lines : List (List Char)) :
    Beyond (lines.foldl Reading.take first) (lines.foldl Reading.take second) :=
  List.foldl_rel beyond fun _ _ _ _ onwards => onwards.take

end Beyond

/-! ## Lines inside of comments -/

/-- What a line inside of a comment does. -/
def effect (reading : Reading) (raw : List Char) : Effect :=
  if reading.gain (found? reading.braces.depth raw) = 0 then .nothing else .finding

theorem gain_eq_zero_iff :
    reading.gain (found? reading.braces.depth raw) = 0 ↔ reading.effect raw = .nothing := by
  rw [effect]
  split
  next nothing => simp [nothing]
  next something => simp [something]

/-- Of two lines inside of a comment nothing is found on the second one, so the readings differ
exactly by what is found on the first. -/
theorem alike_or_beyond (inComment : reading.braces.inComment = true)
    (lineGoesOn : isInfix ['*', '/'] line = false) (otherGoesOn : isInfix ['*', '/'] other = false)
    (otherNothing : reading.effect other = .nothing) :
    reading.effect line = .nothing ∧ Alike (reading.take line) (reading.take other) ∨
      reading.effect line ≠ .nothing ∧ Beyond (reading.take line) (reading.take other) := by
  have braces : reading.braces.advance line = reading.braces.advance other := by
    rw [Braces.advance_of_inComment inComment lineGoesOn,
      Braces.advance_of_inComment inComment otherGoesOn]
  have kept := put_of_gain_eq_zero other (gain_eq_zero_iff.mpr otherNothing)
  rw [take_eq, take_eq, kept]
  by_cases nothing : reading.gain (found? reading.braces.depth line) = 0
  · rw [put_of_gain_eq_zero _ nothing]
    have alike : Alike reading reading := ⟨rfl, rfl, rfl, rfl⟩
    exact .inl ⟨gain_eq_zero_iff.mp nothing, alike.passing rfl braces⟩
  · refine .inr ⟨mt gain_eq_zero_iff.mpr nothing, braces, declarations_of_put, ?_⟩
    show reading.size < (reading.put _ _).size
    rw [size_put]
    omega

end Reading

/-- Inside of a comment a line for another one, on which nothing is found, changes the code that is
read exactly if something is found on it. -/
theorem codeOf_eq_iff {first second : String} {before after : List (List Char)}
    {line other : List Char} (firstLines : lines first.toList = before ++ line :: after)
    (secondLines : lines second.toList = before ++ other :: after)
    (inComment : (before.foldl Braces.advance .start).inComment = true)
    (lineGoesOn : isInfix ['*', '/'] line = false) (otherGoesOn : isInfix ['*', '/'] other = false)
    (otherNothing : (before.foldl Reading.take .start).effect other = .nothing) :
    codeOf (outline first) = codeOf (outline second) ↔
      (before.foldl Reading.take .start).effect line = .nothing := by
  have readingInComment : (before.foldl Reading.take .start).braces.inComment = true := by
    rw [Reading.braces_foldl]
    exact inComment
  have read {text : String} {line : List Char}
      (textLines : lines text.toList = before ++ line :: after) :
      codeOf (outline text) =
        ((after.foldl Reading.take ((before.foldl Reading.take .start).take line)).imports.reverse,
          entriesOf true (after.foldl Reading.take
            ((before.foldl Reading.take .start).take line)).declarations.reverse) := by
    rw [outline, textLines, List.foldl_append, List.foldl_cons]
    rfl
  rw [read firstLines, read secondLines]
  rcases Reading.alike_or_beyond readingInComment lineGoesOn otherGoesOn otherNothing with
    ⟨nothing, alike⟩ | ⟨something, beyond⟩
  · have final := alike.foldl after
    rw [final.imports, entriesOf, entriesOf, List.map_reverse, List.map_reverse, ← entriesOf,
      ← entriesOf, final.entries]
    exact iff_of_true rfl nothing
  · have final := (beyond.foldl after).more
    refine iff_of_false (fun same => ?_) something
    obtain ⟨imports, entries⟩ := Prod.mk.inj same
    have counted := countFound_congr imports entries
    rw [countFound_reverse, countFound_reverse] at counted
    exact Nat.ne_of_gt final counted

end CodeAtlas.Source.Java
