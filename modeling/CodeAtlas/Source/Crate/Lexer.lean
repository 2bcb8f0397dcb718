import CodeAtlas.Source.Nesting

/-!
# Lexemes of Rust

Names, lifetimes, literals, marks and comments.  A line comment that documents takes the end of
its line with it; block comments may contain one another.
-/

namespace CodeAtlas.Source.Crate

/-- The kinds of lexemes. -/
inductive Kind
  | name
  | lifetime
  | literal
  | mark
  | openBracket
  | closeBracket
  | comment
  | shebang
  | blank
deriving DecidableEq, Repr

/-- A byte order mark counts as blank. -/
def isSpace (c : Char) : Bool := Text.isBlank c || c.toNat = 0xFEFF

/-- Characters that begin names. -/
def isNameStart (c : Char) : Bool := Text.isAlphabetic c || c = '_'

def isNamePart (c : Char) : Bool := Text.isWord c

/-- How many characters of a kind follow. -/
def run (test : Char → Bool) (rest : List Char) : Nat := (rest.takeWhile test).length

/-- The length of a text after its opening quotation mark, the closing one included. -/
def quotedLength (quote : Char) : List Char → Nat
  | [] => 0
  | '\\' :: [] => 1
  | '\\' :: _ :: rest => quotedLength quote rest + 2
  | c :: rest => if c = quote then 1 else quotedLength quote rest + 1

/-- The length of a raw text after its opening quotation mark: it ends with a quotation mark and
as many hash marks as it began with. -/
def rawLength (hashes : Nat) : List Char → Nat
  | [] => 0
  | c :: rest =>
      if c = '"' && (List.replicate hashes '#').isPrefixOf rest then hashes + 1
      else rawLength hashes rest + 1

/-- The length of a block comment after its first mark; `depth` further ones are open in it.  Of
two slashes in a row neither opens another one. -/
def blockLength (depth : Nat) : List Char → Nat
  | [] => 0
  | '*' :: '/' :: rest =>
      match depth with
      | 0 => 2
      | depth + 1 => blockLength depth rest + 2
  | '/' :: '*' :: rest => blockLength (depth + 1) rest + 2
  | '/' :: '/' :: rest => blockLength depth rest + 2
  | _ :: rest => blockLength depth rest + 1

/-- Whether the text after two slashes makes a comment that documents. -/
def documents : List Char → Bool
  | '!' :: _ => true
  | '/' :: '/' :: _ => false
  | '/' :: _ => true
  | _ => false

/-- The length of a line comment after its first slash. -/
def lineCommentLength (rest : List Char) : Nat :=
  let body := run (· ≠ '\n') rest
  if documents (rest.drop 1) && body < rest.length then body + 1 else body

/-- The letters that may stand before a quotation mark. -/
def textLetters : List (List Char) :=
  ["br".toList, "cr".toList, "b".toList, "c".toList, "r".toList]

/-- The length of a literal that begins with letters, all of it counted. -/
def letteredLength? (characters : List Char) : Option Nat :=
  textLetters.findSome? fun letters => do
    let rest ← Text.afterPrefix? letters characters
    let hashes := run (· = '#') rest
    match rest.drop hashes with
    | '"' :: body =>
        if letters.contains 'r' then
          some (letters.length + hashes + 1 + rawLength hashes body)
        else if hashes = 0 then some (letters.length + 1 + quotedLength '"' body)
        else none
    | '\'' :: body =>
        if letters = ['b'] && hashes = 0 then some (2 + quotedLength '\'' body) else none
    | _ => none

/-- The lexeme that begins with an apostrophe: a character or a lifetime. -/
def apostrophe (rest : List Char) : Kind × Nat :=
  match rest with
  | '\\' :: _ => (.literal, quotedLength '\'' rest)
  | _ :: '\'' :: _ => (.literal, 2)
  | _ => (.lifetime, run isNamePart rest)

/-- A line at the top of a file that names the program to run it. -/
def isShebang (rest : List Char) : Bool :=
  match rest with
  | '!' :: after =>
      after.contains '\n' &&
        match after with
        | '[' :: _ => false
        | _ => true
  | _ => false

/-- The marks of two characters. -/
def pairs : List (Char × Char) := [(':', ':'), ('-', '>'), ('=', '>')]

/-- The lexeme that begins with a character; `top` tells that no lexeme but blanks and comments
stands before it. -/
def kindAt (top : Bool) (c : Char) (rest : List Char) : Kind × Nat :=
  if isSpace c then (.blank, run isSpace rest)
  else if c = '#' && top && isShebang rest then (.shebang, run (· ≠ '\n') rest + 1)
  else if c = '/' && rest.head? = some '/' then (.comment, lineCommentLength rest)
  else if c = '/' && rest.head? = some '*' then (.comment, blockLength 0 (rest.drop 1) + 1)
  else if c = '"' then (.literal, quotedLength '"' rest)
  else if c = '\'' then apostrophe rest
  else match letteredLength? (c :: rest) with
    | some length => (.literal, length - 1)
    | none =>
        if c = 'r' && rest.head? = some '#' && (rest.drop 1).head?.any isNameStart then
          (.name, run isNamePart (rest.drop 1) + 1)
        else if isNameStart c then (.name, run isNamePart rest)
        else if c.isDigit then (.literal, run isNamePart rest)
        else if c = '(' || c = '[' || c = '{' then (.openBracket, 0)
        else if c = ')' || c = ']' || c = '}' then (.closeBracket, 0)
        else if rest.head?.any fun next => pairs.contains (c, next) then (.mark, 1)
        else (.mark, 0)

/-- The reader of the lexemes of Rust. -/
def read : Lexeme.Reader Kind Bool := fun top c rest =>
  let (kind, more) := kindAt top c rest
  (kind, more, top && (kind == .blank || kind == .comment))

/-- What a lexeme does to the nesting. -/
def role (lexeme : Lexeme Kind) : Bracket :=
  match lexeme.kind with
  | .openBracket => .opens
  | .closeBracket => .closes
  | _ => .neither

/-- A lexeme that is not blank, with its depth. -/
abbrev Token := Nested Kind

namespace Token

def isName (token : Token) (text : String) : Bool := token.kind == .name && token.isText text

def isComment (token : Token) : Bool := token.kind == .comment

end Token

/-- The tokens of a source. -/
def tokens (source : List Char) : List Token :=
  Nested.ofLexemes role 0 ((Lexeme.readAll read true source).filter (·.kind != .blank))

end CodeAtlas.Source.Crate
