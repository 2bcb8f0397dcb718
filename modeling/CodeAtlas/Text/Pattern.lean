import CodeAtlas.Text.Split

/-!
# Patterns

Patterns of characters, matched from the beginning of a text.  Where a pattern leaves a choice,
the first way that leads to a match of the whole pattern is taken, so the order of alternatives
and the preference of a repetition decide what is captured.
-/

namespace CodeAtlas.Text

/-- A pattern of characters. -/
inductive Pattern
  /-- Nothing at all. -/
  | nothing
  /-- One character of a class. -/
  | one (test : Char → Bool)
  /-- Any number of characters of a class; as many as possible or as few as possible. -/
  | run (greedy : Bool) (test : Char → Bool)
  | seq (first second : Pattern)
  /-- The first pattern, or else the second. -/
  | either (first second : Pattern)
  /-- Any number of repetitions, none of them empty. -/
  | many (greedy : Bool) (pattern : Pattern)
  /-- A part that is remembered under a number. -/
  | capture (index : Nat) (pattern : Pattern)
  /-- The end of the text. -/
  | atEnd
  /-- A place where no character of a class follows. -/
  | before (test : Char → Bool)

namespace Pattern

/-- The remembered parts of a match. -/
abbrev Captures := List (Nat × List Char)

/-- What is tried for the rest of a text once a part has matched. -/
abbrev Continuation := List Char → Captures → Option Captures

/-- The first of two attempts that succeeds. -/
def firstOf (first : Option Captures) (second : Unit → Option Captures) : Option Captures :=
  match first with
  | some captures => some captures
  | none => second ()

/-- Match characters of a class, as many as possible. -/
def runGreedy (test : Char → Bool) (captures : Captures) (next : Continuation) :
    List Char → Option Captures
  | [] => next [] captures
  | c :: rest =>
      if test c then
        firstOf (runGreedy test captures next rest) fun _ => next (c :: rest) captures
      else next (c :: rest) captures

/-- Match characters of a class, as few as possible. -/
def runLazy (test : Char → Bool) (captures : Captures) (next : Continuation) :
    List Char → Option Captures
  | [] => next [] captures
  | c :: rest =>
      firstOf (next (c :: rest) captures) fun _ =>
        if test c then runLazy test captures next rest else none

/-- Match a pattern at the beginning of a text, and then what follows it. -/
def matchThen (pattern : Pattern) (text : List Char) (captures : Captures)
    (next : Continuation) : Option Captures :=
  match pattern with
  | .nothing => next text captures
  | .one test =>
      match text with
      | c :: rest => if test c then next rest captures else none
      | [] => none
  | .run true test => runGreedy test captures next text
  | .run false test => runLazy test captures next text
  | .seq first second =>
      first.matchThen text captures fun rest captures => second.matchThen rest captures next
  | .either first second =>
      firstOf (first.matchThen text captures next) fun _ =>
        second.matchThen text captures next
  | .many greedy inner =>
      let again (_ : Unit) : Option Captures :=
        inner.matchThen text captures fun rest captures =>
          if rest.length < text.length then (many greedy inner).matchThen rest captures next
          else none
      if greedy then firstOf (again ()) fun _ => next text captures
      else firstOf (next text captures) again
  | .capture index inner =>
      inner.matchThen text captures fun rest after =>
        next rest ((index, text.take (text.length - rest.length)) :: after)
  | .atEnd => if text.isEmpty then next text captures else none
  | .before test => if text.head?.any test then none else next text captures
termination_by (sizeOf pattern, text.length)

/-- The remembered parts if a text begins with a match. -/
def match? (pattern : Pattern) (text : List Char) : Option Captures :=
  pattern.matchThen text [] fun _ captures => some captures

/-- The part remembered under a number. -/
def part? (captures : Captures) (index : Nat) : Option (List Char) :=
  captures.lookup index

/-- The part remembered under a number, or nothing. -/
def part (captures : Captures) (index : Nat) : List Char := (part? captures index).getD []

/-! ## Building patterns -/

/-- Patterns one after the other. -/
def sequence (patterns : List Pattern) : Pattern := patterns.foldr .seq .nothing

/-- The first of some patterns that fits. -/
def choice : List Pattern → Pattern
  | [] => .nothing
  | [pattern] => pattern
  | pattern :: patterns => .either pattern (choice patterns)

/-- A given text. -/
def literal (text : String) : Pattern :=
  sequence (text.toList.map fun c => .one (· = c))

/-- One of some words. -/
def word (words : List String) : Pattern := choice (words.map literal)

/-- At least one character of a class, as many as possible. -/
def several (test : Char → Bool) : Pattern := .seq (.one test) (.run true test)

/-- A pattern, or nothing. -/
def optional (pattern : Pattern) : Pattern := .either pattern .nothing

/-- Any number of blanks. -/
def blanks : Pattern := .run true isBlank

/-- At least one blank. -/
def gap : Pattern := several isBlank

/-- The characters of a name. -/
def name : Pattern := several isWord

/-- Letters of the Latin alphabet and the underscore. -/
def isInitial (c : Char) : Bool := c.isAlpha || c = '_'

/-- Any number of characters that are none of the given ones. -/
def without (marks : List Char) : Pattern := .run true fun c => !marks.contains c

end Pattern

end CodeAtlas.Text
