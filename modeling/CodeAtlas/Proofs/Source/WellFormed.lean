import CodeAtlas.Source.Reader
import CodeAtlas.Proofs.Source.CFamily.Placed
import CodeAtlas.Proofs.Source.Comment
import CodeAtlas.Proofs.Source.Go.Placed
import CodeAtlas.Proofs.Source.Java.Placed
import Mathlib

/-!
# Outlines of files that are read line by line

Every text has a well-formed outline, however little of it is code.  What could keep a reader from
its end is a position beyond the declarations or a part that a match has not remembered, and neither
occurs.
-/

namespace CodeAtlas.Source

open CodeAtlas.Text CodeAtlas.Text.Pattern

/-- The position of the declaration that a line after others may add members to, as the reader has
kept it since the body of the declaration was opened.  Members in Java are added to the last
declaration if there is one. -/
def openedAt (language : Language) (before : List (List Char)) (line : List Char) : Option ℕ :=
  match language with
  | .go => Go.Reading.start.notedAfter none before
  | .c | .cpp => (CFamily.readBefore language line .start before).opened
  | _ => none

/-- What has been declared before a line. -/
def declaredAt (language : Language) (before : List (List Char)) (line : List Char) :
    List Declaration :=
  match language with
  | .go => (before.foldl Go.Reading.take .start).declarations
  | .java => (before.foldl Java.Reading.take .start).declarations
  | .c | .cpp => (CFamily.readBefore language line .start before).declarations
  | _ => []

/-- The parts of matches that a reader uses without asking whether they are there. -/
def partsTaken : Language → List (Pattern × ℕ)
  | .go => Go.partsTaken
  | .java => Java.partsTaken
  | .c | .cpp => CFamily.partsTaken
  | _ => []

theorem CFamily.depth_bracesAfterLine_le (braces : Braces) (raw : List Char) :
    (CFamily.bracesAfterLine braces raw).depth ≤ braces.depth + raw.length := by
  rw [CFamily.bracesAfterLine]
  split
  · exact Nat.le_add_right _ _
  · exact braces.depth_advance_le raw

/-- No more braces are open than characters have been read. -/
theorem depth_bracesAfter_le (language : Language) (before : List (List Char)) :
    (bracesAfter language before).depth ≤ before.flatten.length := by
  have bounded := Braces.depth_foldl_le Braces.depth_advance_le .start before
  have family := Braces.depth_foldl_le CFamily.depth_bracesAfterLine_le .start before
  rw [show Braces.start.depth = 0 from rfl, Nat.zero_add] at bounded family
  cases language with
  | c | cpp => exact family
  | python | rust | typeScript | javaScript | go | java => exact bounded

/-- Whatever a text is, its outline is well formed, every position that is kept while it is read
lies among the declarations, every part that is used of a match is there, no more braces are open
than characters have been read, and the numbers of the lines fit in 32 bits if their count does. -/
theorem wellFormed_ofSource {reader : SyntaxReader} {language : Language}
    (isPattern : language.fidelity = .pattern) (path text : String) :
    (Outline.ofSource reader language path text).WellFormed language ∧
      (∀ before line after, lines text.toList = before ++ line :: after →
        ∀ position ∈ openedAt language before line,
          position < (declaredAt language before line).length) ∧
      (∀ taken ∈ partsTaken language, ∀ line captures,
        taken.1.match? line = some captures → (part? captures taken.2).isSome = true) ∧
      (∀ before, (bracesAfter language before).depth ≤ before.flatten.length) ∧
      ((Outline.ofSource reader language path text).lineCount < Nat.pow 2 32 →
        (Outline.ofSource reader language path text).HasNarrowLines) := by
  have taken {parts : List (Pattern × ℕ)}
      (remembered : ∀ taken ∈ parts, taken.1.remembers taken.2 = true) :
      ∀ taken ∈ parts, ∀ line captures,
        taken.1.match? line = some captures → (part? captures taken.2).isSome = true :=
    fun taken member _ _ found => isSome_part?_of_match? (remembered taken member) found
  have family (isFamily : language = .c ∨ language = .cpp) (before : List (List Char))
      (line : List Char) :=
    (CFamily.isPlaced_readBefore isFamily CFamily.isPlaced_start line before).opened
  have bounds (wellFormed : (Outline.ofSource reader language path text).WellFormed language) :=
    And.intro (depth_bracesAfter_le language) wellFormed.hasNarrowLines
  cases language with
  | python | rust | typeScript | javaScript => cases isPattern
  | go =>
      exact ⟨Go.wellFormed_outline text, fun _ _ _ _ _ => Go.lt_of_mem_notedAfter,
        taken Go.remembers_partsTaken, bounds (Go.wellFormed_outline text)⟩
  | java =>
      exact ⟨Java.wellFormed_outline text, fun _ _ _ _ _ => nofun,
        taken Java.remembers_partsTaken, bounds (Java.wellFormed_outline text)⟩
  | c =>
      exact ⟨CFamily.wellFormed_outline (.inl rfl) text,
        fun before line _ _ => family (.inl rfl) before line, taken CFamily.remembers_partsTaken,
        bounds (CFamily.wellFormed_outline (.inl rfl) text)⟩
  | cpp =>
      exact ⟨CFamily.wellFormed_outline (.inr rfl) text,
        fun before line _ _ => family (.inr rfl) before line, taken CFamily.remembers_partsTaken,
        bounds (CFamily.wellFormed_outline (.inr rfl) text)⟩

/-- A brace too many, a text and a comment without an end. -/
theorem wellFormed_of_unbalanced :
    let text := "struct a \x7b\nint x;\n\x7d\x7d\n#define B \"\n/*"
    let outline := Outline.ofSource .ofLexemes .c "a.c" text
    Language.c.fidelity = .pattern ∧
      openedAt .c ["struct a \x7b".toList] "int x;".toList = some 0 ∧
      outline.declarations.map (·.line) = [1, 4] ∧ outline.HasNarrowLines ∧
      outline.WellFormed .c ∧
      (∀ before line after, lines text.toList = before ++ line :: after →
        ∀ position ∈ openedAt .c before line, position < (declaredAt .c before line).length) ∧
      (∀ taken ∈ partsTaken .c, ∀ line captures,
        taken.1.match? line = some captures → (part? captures taken.2).isSome = true) ∧
      ∀ before, (bracesAfter .c before).depth ≤ before.flatten.length := by
  obtain ⟨wellFormed, opened, taken, depth, narrow⟩ :=
    @wellFormed_ofSource .ofLexemes .c rfl "a.c"
      "struct a \x7b\nint x;\n\x7d\x7d\n#define B \"\n/*"
  have count : (Outline.ofSource .ofLexemes .c "a.c"
      "struct a \x7b\nint x;\n\x7d\x7d\n#define B \"\n/*").lineCount = 5 := by
    simp only [Outline.ofSource]
    cbv
  refine ⟨rfl, ?_, ?_, narrow (by rw [count]; decide), wellFormed, opened, taken, depth⟩
  · simp only [openedAt]
    cbv
  · simp only [Outline.ofSource]
    cbv

end CodeAtlas.Source
