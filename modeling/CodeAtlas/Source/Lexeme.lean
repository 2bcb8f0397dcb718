import CodeAtlas.Text.Split

/-!
# Lexemes

A source text cut into lexemes, each with the place where it begins.  A language gives a reader
that decides, from the character at hand, what kind of lexeme begins there and how many further
characters belong to it.  `Lexeme.texts_readAll` says that nothing of the text is lost.
-/

namespace CodeAtlas.Source

/-- A piece of a source text. -/
structure Lexeme (κ : Type) where
  kind : κ
  text : List Char
  /-- How many characters precede it. -/
  start : Nat
  /-- How many lines precede it. -/
  row : Nat
deriving Repr

namespace Lexeme

variable {κ σ : Type}

/-- The position after the lexeme. -/
def stop (lexeme : Lexeme κ) : Nat := lexeme.start + lexeme.text.length

/-- The line on which the lexeme ends, counted from zero. -/
def endRow (lexeme : Lexeme κ) : Nat := lexeme.row + lexeme.text.count '\n'

def string (lexeme : Lexeme κ) : String := String.ofList lexeme.text

/-- Decides what begins with a character that others follow: its kind, how many of the
following characters belong to it, and the state after it. -/
abbrev Reader (κ σ : Type) := σ → Char → List Char → κ × Nat × σ

/-- Read lexeme after lexeme; those found so far stand in reverse. -/
def readFrom (read : Reader κ σ) (state : σ) (start row : Nat) (done : List (Lexeme κ)) :
    List Char → List (Lexeme κ)
  | [] => done.reverse
  | c :: rest =>
      let (kind, more, next) := read state c rest
      let text := c :: rest.take more
      readFrom read next (start + text.length) (row + text.count '\n')
        (⟨kind, text, start, row⟩ :: done) (rest.drop more)
termination_by characters => characters.length
decreasing_by simp only [List.length_drop, List.length_cons]; omega

/-- The lexemes of a text. -/
def readAll (read : Reader κ σ) (state : σ) (source : List Char) : List (Lexeme κ) :=
  readFrom read state 0 0 [] source

theorem texts_readFrom (read : Reader κ σ) (state : σ) (start row : Nat)
    (done : List (Lexeme κ)) (source : List Char) :
    (readFrom read state start row done source).flatMap (·.text) =
      done.reverse.flatMap (·.text) ++ source := by
  fun_induction readFrom read state start row done source with
  | case1 => simp
  | case2 state start row done c rest kind more next _ text ih =>
      rw [ih]
      simp [text, List.append_assoc]

/-- The lexemes of a text written one after the other are the text. -/
theorem texts_readAll (read : Reader κ σ) (state : σ) (source : List Char) :
    (readAll read state source).flatMap (·.text) = source := by
  simp [readAll, texts_readFrom]

/-! ### Bounded reading

A source has at most as many lexemes as characters.  Reading with that bound is the same as
reading until nothing is left, and it recurs on the bound, so that closed texts can be evaluated. -/

/-- Read at most so many lexemes; those found so far stand in reverse. -/
def readUpTo (read : Reader κ σ) : Nat → σ → Nat → Nat → List (Lexeme κ) → List Char →
    List (Lexeme κ)
  | 0, _, _, _, done, _ => done.reverse
  | _ + 1, _, _, _, done, [] => done.reverse
  | bound + 1, state, start, row, done, c :: rest =>
      let (kind, more, next) := read state c rest
      let text := c :: rest.take more
      readUpTo read bound next (start + text.length) (row + text.count '\n')
        (⟨kind, text, start, row⟩ :: done) (rest.drop more)

theorem readFrom_eq_readUpTo (read : Reader κ σ) {bound : Nat} (state : σ) (start row : Nat)
    (done : List (Lexeme κ)) {source : List Char} (enough : source.length ≤ bound) :
    readFrom read state start row done source =
      readUpTo read bound state start row done source := by
  induction bound generalizing state start row done source with
  | zero => rw [List.length_eq_zero_iff.mp (Nat.le_zero.mp enough), readFrom, readUpTo]
  | succ bound induction =>
      cases source with
      | nil => rw [readFrom, readUpTo]
      | cons c rest =>
          rw [readFrom, readUpTo]
          refine induction _ _ _ _ ?_
          rw [List.length_cons] at enough
          rw [List.length_drop]
          omega

theorem readAll_eq_readUpTo (read : Reader κ σ) (state : σ) (source : List Char) :
    readAll read state source = readUpTo read source.length state 0 0 [] source :=
  readFrom_eq_readUpTo read state 0 0 [] (Nat.le_refl _)

end Lexeme

/-- The characters of a source from one position up to another. -/
def slice (source : Array Char) (start stop : Nat) : List Char :=
  (source.extract start stop).toList

/-- A header as it is shown: blanks collapsed, and the marks that lead over to a body removed. -/
def headerText (characters : List Char) : String :=
  let marks := Text.dropEndWhile
    (fun c => c = ':' || c = '{' || c = '=' || c = ';') (Text.collapse characters)
  String.ofList (Text.trimEnd marks)

end CodeAtlas.Source
