import CodeAtlas.Source.Reader
import CodeAtlas.Proofs.Source.CFamily.Comment
import CodeAtlas.Proofs.Source.Go.Comment
import CodeAtlas.Proofs.Source.Java.Comment
import Mathlib

/-!
# Comments of files that are read line by line

The lines of a comment are matched like all others: only the braces take note of the comment.  So a
line inside of a comment can be replaced without consequences exactly if nothing is found on it.
-/

namespace CodeAtlas.Source

open CodeAtlas.Text

/-- The braces after lines of a language. -/
def bracesAfter (language : Language) (lines : List (List Char)) : Braces :=
  match language with
  | .c | .cpp => lines.foldl CFamily.bracesAfterLine .start
  | _ => lines.foldl Braces.advance .start

/-- What a line inside of a comment does after other lines, in a file with this outline. -/
def effectOf (language : Language) (outline : Outline) (before : List (List Char))
    (line : List Char) : Effect :=
  match language with
  | .go => (before.foldl Go.Reading.take .start).effect (Go.structNames outline.declarations) line
  | .java => (before.foldl Java.Reading.take .start).effect line
  | .c | .cpp => CFamily.effectAfter language before line
  | _ => .nothing

/-- Let a line inside of a comment stand for another one on which nothing is found.  If it does not
turn what the lines after it are read as, it changes the imports or the declarations exactly if
something is found on it. -/
theorem codeOf_eq_iff_of_comment_replaced {reader : SyntaxReader} {language : Language}
    {path first second : String} {before after : List (List Char)} {line other : List Char}
    (isPattern : language.fidelity = .pattern)
    (firstLines : lines first.toList = before ++ line :: after)
    (secondLines : lines second.toList = before ++ other :: after)
    (inComment : (bracesAfter language before).inComment = true)
    (lineGoesOn : isInfix ['*', '/'] line = false) (otherGoesOn : isInfix ['*', '/'] other = false)
    (lineStays : effectOf language (.ofSource reader language path second) before line ≠ .turning)
    (otherNothing :
      effectOf language (.ofSource reader language path second) before other = .nothing) :
    codeOf (.ofSource reader language path first) =
        codeOf (.ofSource reader language path second) ↔
      effectOf language (.ofSource reader language path second) before line = .nothing := by
  cases language with
  | python | rust | typeScript | javaScript => cases isPattern
  | go =>
      exact Go.codeOf_eq_iff firstLines secondLines inComment lineGoesOn otherGoesOn rfl lineStays
        otherNothing
  | java =>
      exact Java.codeOf_eq_iff firstLines secondLines inComment lineGoesOn otherGoesOn otherNothing
  | c =>
      exact CFamily.codeOf_eq_iff (.inl rfl) firstLines secondLines inComment lineGoesOn otherGoesOn
        lineStays otherNothing
  | cpp =>
      exact CFamily.codeOf_eq_iff (.inr rfl) firstLines secondLines inComment lineGoesOn otherGoesOn
        lineStays otherNothing

theorem codeOf_eq_iff_macro_in_comment :
    codeOf (.ofSource .ofLexemes .c "a.c" "/*\n#define A\n*/\n") =
        codeOf (.ofSource .ofLexemes .c "a.c" "/*\n* #define A\n*/\n") ↔
      effectOf .c (.ofSource .ofLexemes .c "a.c" "/*\n* #define A\n*/\n") ["/*".toList]
        "#define A".toList = .nothing := by
  have firstLines : lines "/*\n#define A\n*/\n".toList =
      ["/*".toList] ++ "#define A".toList :: ["*/".toList] := by decide +kernel
  have secondLines : lines "/*\n* #define A\n*/\n".toList =
      ["/*".toList] ++ "* #define A".toList :: ["*/".toList] := by decide +kernel
  have found : effectOf .c (.ofSource .ofLexemes .c "a.c" "/*\n* #define A\n*/\n") ["/*".toList]
      "#define A".toList = .finding := by
    simp only [effectOf]
    cbv
  have nothing : effectOf .c (.ofSource .ofLexemes .c "a.c" "/*\n* #define A\n*/\n") ["/*".toList]
      "* #define A".toList = .nothing := by
    simp only [effectOf]
    cbv
  have inComment : (bracesAfter .c ["/*".toList]).inComment = true := by
    simp only [bracesAfter]
    cbv
  exact codeOf_eq_iff_of_comment_replaced rfl firstLines secondLines inComment (by decide)
    (by decide) (by rw [found]; decide) nothing

/-- A macro is read from a comment, unless its line begins with a star. -/
theorem commented_macro_is_read :
    codeOf (.ofSource .ofLexemes .c "a.c" "/*\n#define A\n*/\n") =
        ([], [⟨"A", .macroRule, [], some 2⟩]) ∧
      codeOf (.ofSource .ofLexemes .c "a.c" "/*\n* #define A\n*/\n") = ([], []) := by
  constructor
  · simp only [Outline.ofSource]
    cbv
  · simp only [Outline.ofSource]
    cbv

end CodeAtlas.Source
