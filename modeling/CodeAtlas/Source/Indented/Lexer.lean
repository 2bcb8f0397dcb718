import CodeAtlas.Source.Lexeme

/-!
# Lexemes of Python

Names, marks, texts and comments.  A formatted text holds code between braces, and that code may
hold texts again, so the reader keeps a stack of the texts and braces it stands in.
-/

namespace CodeAtlas.Source.Indented

/-- The kinds of lexemes. -/
inductive Kind
  | name
  | number
  | mark
  | openBracket
  | closeBracket
  | textOpen
  | textPart
  | textClose
  | comment
  | continuation
  | newline
  | blank
deriving DecidableEq, Repr

/-- How a text is written. -/
structure TextForm where
  quote : Char
  long : Bool
  raw : Bool
  formatted : Bool
deriving DecidableEq, Repr

/-- What the reader stands in: a text, code between the braces of a text with so many brackets
open, or the format that may end such code. -/
inductive Frame
  | text (form : TextForm)
  | code (brackets : Nat)
  | format
deriving DecidableEq, Repr

abbrev Frames := List Frame

/-- Characters that begin names; beyond ASCII all that are no blanks. -/
def isNameStart (c : Char) : Bool :=
  c.isAlpha || c = '_' || (128 ≤ c.toNat && !Text.isBlank c && c.toNat ≠ 0xFEFF &&
    c.toNat ≠ 0x2060 && c.toNat ≠ 0x200B)

def isNamePart (c : Char) : Bool := isNameStart c || c.isDigit

/-- Letters that may stand before a quotation mark. -/
def isTextPrefix (c : Char) : Bool :=
  c.toLower = 'r' || c.toLower = 'u' || c.toLower = 'b' || c.toLower = 'f'

def isQuote (c : Char) : Bool := c = '"' || c = '\''

/-- A text that begins with letters and then a quotation mark: its form, and the length of
everything up to its content. -/
def textStart? (characters : List Char) : Option (TextForm × Nat) :=
  let letters := characters.takeWhile isTextPrefix
  match characters.drop letters.length with
  | quote :: rest =>
      if isQuote quote then
        let long := [quote, quote].isPrefixOf rest
        let has (letter : Char) : Bool := letters.any fun c => c.toLower = letter
        some (⟨quote, long, has 'r', has 'f'⟩, letters.length + if long then 3 else 1)
      else none
  | [] => none

/-- Characters that blanks between lexemes are made of. -/
def isSpace (c : Char) : Bool :=
  c ≠ '\n' && (Text.isBlank c || c.toNat = 0xFEFF || c.toNat = 0x2060 || c.toNat = 0x200B)

/-- How many characters of a kind follow. -/
def run (test : Char → Bool) (rest : List Char) : Nat := (rest.takeWhile test).length

/-- One bracket more in the code that the reader stands in. -/
def deeper : Frames → Frames
  | .code brackets :: frames => .code (brackets + 1) :: frames
  | frames => frames

/-- One bracket less in the code that the reader stands in. -/
def shallower : Frames → Frames
  | .code brackets :: frames => .code (brackets - 1) :: frames
  | frames => frames

/-- Whether a brace or colon here belongs to a formatted text and not to the code in it. -/
def atFormatEnd : Frames → Bool
  | .code 0 :: _ => true
  | _ => false

/-- The lexeme that begins in code. -/
def readCode (frames : Frames) (c : Char) (rest : List Char) : Kind × Nat × Frames :=
  if c = '\n' then (.newline, 0, frames)
  else if isSpace c then (.blank, run isSpace rest, frames)
  else if c = '#' then (.comment, run (· ≠ '\n') rest, frames)
  else if c = '\\' then
    match rest with
    | '\n' :: _ => (.continuation, 1, frames)
    | '\r' :: '\n' :: _ => (.continuation, 2, frames)
    | _ => (.mark, 0, frames)
  else match textStart? (c :: rest) with
    | some (form, length) => (.textOpen, length - 1, .text form :: frames)
    | none =>
        if isNameStart c then (.name, run isNamePart rest, frames)
        else if c.isDigit then (.number, run (fun c => isNamePart c || c = '.') rest, frames)
        else if c = '(' || c = '[' || c = '{' then (.openBracket, 0, deeper frames)
        else if c = '}' && atFormatEnd frames then (.closeBracket, 0, frames.drop 1)
        else if c = ')' || c = ']' || c = '}' then (.closeBracket, 0, shallower frames)
        else if c = ':' && atFormatEnd frames then (.mark, 0, .format :: frames)
        else match rest with
          | '=' :: _ =>
              if c = '=' || c = ':' || c = '!' || c = '<' || c = '>' then (.mark, 1, frames)
              else (.mark, 0, frames)
          | _ => (.mark, 0, frames)

/-- How many characters a backslash in a text takes with it. -/
def escapeLength (form : TextForm) (rest : List Char) : Nat :=
  match rest with
  | [] => 0
  | c :: after =>
      if form.raw then (if c = form.quote || c = '\\' then 1 else 0)
      else if form.formatted && c = 'N' && after.head? = some '{' then
        run (· ≠ '}') after + 2
      else if form.formatted && (c = '{' || c = '}') then 0
      else 1

/-- The lexeme that begins in a text. -/
def readText (form : TextForm) (outer : Frames) (c : Char) (rest : List Char) :
    Kind × Nat × Frames :=
  let inside := Frame.text form :: outer
  let ends := c = form.quote && (!form.long || [form.quote, form.quote].isPrefixOf rest)
  if ends then (.textClose, if form.long then 2 else 0, outer)
  else if c = '\\' then (.textPart, escapeLength form rest, inside)
  else if form.formatted && (c = '{' || c = '}') then
    if rest.head? = some c then (.textPart, 1, inside)
    else if c = '{' then (.openBracket, 0, .code 0 :: inside)
    else (.textPart, 0, inside)
  else if c = form.quote then (.textPart, 0, inside)
  else
    (.textPart, run (fun c => c ≠ form.quote && c ≠ '\\' &&
      !(form.formatted && (c = '{' || c = '}'))) rest, inside)

/-- The lexeme that begins in the format of a formatted text. -/
def readFormat (outer : Frames) (c : Char) (rest : List Char) : Kind × Nat × Frames :=
  if c = '{' then (.openBracket, 0, .code 0 :: .format :: outer)
  else if c = '}' then (.closeBracket, 0, outer.drop 1)
  else (.textPart, run (fun c => c ≠ '{' && c ≠ '}') rest, .format :: outer)

/-- The reader of the lexemes of Python. -/
def read : Lexeme.Reader Kind Frames := fun frames c rest =>
  match frames with
  | .text form :: outer => readText form outer c rest
  | .format :: outer => readFormat outer c rest
  | _ => readCode frames c rest

/-- The lexemes of a source. -/
def lexemes (source : List Char) : List (Lexeme Kind) := Lexeme.readAll read [] source

end CodeAtlas.Source.Indented
