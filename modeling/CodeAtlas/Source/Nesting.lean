import CodeAtlas.Source.Lexeme

/-!
# Nesting

Lexemes with the number of brackets around them.  Both brackets of a pair stand at the depth of
the text around the pair, and what is between them is deeper.
-/

namespace CodeAtlas.Source

/-- What a lexeme does to the nesting. -/
inductive Bracket
  | opens
  | closes
  | neither
deriving DecidableEq, Repr

/-- A lexeme and the number of brackets around it. -/
structure Nested (κ : Type) extends Lexeme κ where
  depth : Nat
deriving Repr

namespace Nested

variable {κ : Type}

/-- Whether the text of a lexeme is the given one. -/
def isText (token : Nested κ) (text : String) : Bool := token.text == text.toList

/-- Whether the text of a lexeme is the given one and it stands outside of all brackets. -/
def isOuter (token : Nested κ) (text : String) : Bool := token.depth == 0 && token.isText text

/-- Whether the lexeme is one given character. -/
def isMark (token : Nested κ) (mark : Char) : Bool := token.text == [mark]

/-- Whether the lexeme is one given character outside of all brackets. -/
def isOuterMark (token : Nested κ) (mark : Char) : Bool := token.depth == 0 && token.isMark mark

/-- The lexeme seen from within so many brackets. -/
def inside (levels : Nat) (token : Nested κ) : Nested κ :=
  { token with depth := token.depth - levels }

/-- Find the depth of each lexeme, given the depth before the first. -/
def ofLexemes (role : Lexeme κ → Bracket) (depth : Nat) :
    List (Lexeme κ) → List (Nested κ)
  | [] => []
  | lexeme :: rest =>
      match role lexeme with
      | .opens => ⟨lexeme, depth⟩ :: ofLexemes role (depth + 1) rest
      | .closes => ⟨lexeme, depth - 1⟩ :: ofLexemes role (depth - 1) rest
      | .neither => ⟨lexeme, depth⟩ :: ofLexemes role depth rest

/-- The source from the beginning of the first token to the end of the last. -/
def spanText (source : Array Char) (tokens : List (Nested κ)) : List Char :=
  match tokens.head?, tokens.getLast? with
  | some first, some last => slice source first.start last.stop
  | _, _ => []

/-- The tokens of a bracket that opens first, without the brackets and one level less deep, and
the tokens after it. -/
def group (tokens : List (Nested κ)) : List (Nested κ) × List (Nested κ) :=
  match tokens with
  | [] => ([], [])
  | opening :: rest =>
      let within := rest.takeWhile fun token => opening.depth < token.depth
      let after := rest.dropWhile fun token => opening.depth < token.depth
      (within.map (inside 1), after.drop 1)

theorem length_group (tokens : List (Nested κ)) :
    (group tokens).2.length ≤ tokens.length := by
  cases tokens with
  | nil => simp [group]
  | cons opening rest =>
      have := (List.dropWhile_sublist (fun token : Nested κ => decide (opening.depth < token.depth))
        (l := rest)).length_le
      simp only [group, List.length_drop, List.length_cons]
      omega

/-- The pieces between the tokens that pass a test, and without them. -/
def cut (test : Nested κ → Bool) (tokens : List (Nested κ)) : List (List (Nested κ)) :=
  tokens.foldr (fun token pieces =>
    if test token then [] :: pieces
    else match pieces with
      | piece :: others => (token :: piece) :: others
      | [] => [[token]]) [[]]

/-- The angle brackets that are open after a token. -/
def anglesAfter (angles : Nat) (token : Nested κ) : Nat :=
  if token.isOuterMark '<' then angles + 1
  else if token.isOuterMark '>' then angles - 1
  else angles

/-- The tokens up to the first one outside of angle brackets that passes a test, and the tokens
from there on. -/
def spanAngled (test : Nested κ → Bool) (angles : Nat) :
    List (Nested κ) → List (Nested κ) × List (Nested κ)
  | [] => ([], [])
  | token :: rest =>
      if angles == 0 && test token then ([], token :: rest)
      else
        let (before, after) := spanAngled test (anglesAfter angles token) rest
        (token :: before, after)

/-- The pieces between the tokens outside of angle brackets that pass a test, and without them;
`current` is the piece being read, in reverse. -/
def cutAngled (test : Nested κ → Bool) (angles : Nat) (current : List (Nested κ)) :
    List (Nested κ) → List (List (Nested κ))
  | [] => [current.reverse]
  | token :: rest =>
      if angles == 0 && test token then current.reverse :: cutAngled test 0 [] rest
      else cutAngled test (anglesAfter angles token) (token :: current) rest

/-- The tokens after the angle brackets that may stand first. -/
def afterAngles (angles : Nat) : List (Nested κ) → List (Nested κ)
  | [] => []
  | token :: rest =>
      if angles == 0 && !token.isOuterMark '<' then token :: rest
      else
        let next := anglesAfter angles token
        if next == 0 then rest else afterAngles next rest

end Nested

end CodeAtlas.Source
