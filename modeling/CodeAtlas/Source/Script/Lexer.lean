import CodeAtlas.Source.Nesting

/-!
# Lexemes of TypeScript and JavaScript

Whether a slash begins a pattern and an angle bracket begins an element depends on whether an
operand can stand there, so the reader keeps track of that.  It also keeps a stack of the
templates and elements it stands in, with the code inside of them.
-/

namespace CodeAtlas.Source.Script

/-- Which of the related languages a file is written in. -/
structure Dialect where
  /-- Whether there are types. -/
  typed : Bool
  /-- Whether there are elements. -/
  elements : Bool
deriving DecidableEq, Repr

/-- The kinds of lexemes. -/
inductive Kind
  | name
  | number
  | text
  | pattern
  | mark
  | openBracket
  | closeBracket
  | part
  | comment
  | shebang
  | blank
deriving DecidableEq, Repr

/-- What the reader stands in. -/
inductive Frame
  /-- Code; for each open bracket it is known whether an operand can follow its end. -/
  | code (brackets : List Bool)
  | template
  /-- The tag of an element, with so many angle brackets open in it. -/
  | tag (closing : Bool) (angles : Nat)
  /-- What stands between the tags of an element. -/
  | content
deriving DecidableEq, Repr

/-- The state of the reader. -/
structure Mode where
  frames : List Frame
  /-- The last lexeme of code that is no blank and no comment. -/
  previous : List Char
  /-- Whether an operand can stand next. -/
  expects : Bool

namespace Mode

def start : Mode := ⟨[.code []], [], true⟩

/-- After a lexeme that leaves the stack as it is. -/
def after (mode : Mode) (text : List Char) (expects : Bool) : Mode :=
  { mode with previous := text, expects }

/-- After a lexeme that changes the stack. -/
def within (mode : Mode) (frames : List Frame) : Mode :=
  { mode with frames, previous := [], expects := true }

/-- After the end of a template or an element. -/
def leave (mode : Mode) (frames : List Frame) : Mode :=
  { mode with frames, previous := ['`'], expects := false }

def wasText (mode : Mode) (texts : List String) : Bool :=
  texts.any fun text => mode.previous == text.toList

end Mode

/-- Characters that are blank between lexemes. -/
def isSpace (c : Char) : Bool :=
  Text.isBlank c || c.toNat = 0xFEFF || c.toNat = 0x200B || c.toNat = 0x2060

/-- Characters that begin names; beyond ASCII all that are no blanks. -/
def isNameStart (c : Char) : Bool :=
  c.isAlpha || c = '_' || c = '$' || c = '#' || c = '\\' || (128 ≤ c.toNat && !isSpace c)

def isNamePart (c : Char) : Bool := isNameStart c && c != '#' || c.isDigit

/-- How many characters of a kind follow. -/
def run (test : Char → Bool) (rest : List Char) : Nat := (rest.takeWhile test).length

/-- The length of a text after its opening quotation mark, the closing one included. -/
def quotedLength (escapes : Bool) (quote : Char) : List Char → Nat
  | [] => 0
  | [_] => 1
  | c :: next :: rest =>
      if c = quote then 1
      else if escapes && c = '\\' then quotedLength escapes quote rest + 2
      else quotedLength escapes quote (next :: rest) + 1

/-- The length of a block comment after its first mark. -/
def blockLength : List Char → Nat
  | [] => 0
  | '*' :: '/' :: _ => 2
  | _ :: rest => blockLength rest + 1

/-- The length of a pattern after its first slash, without the flags; `inClass` tells that a
class of characters is open, where slashes do not end the pattern. -/
def patternLength (inClass : Bool) : List Char → Nat
  | [] => 0
  | '\\' :: [] => 1
  | '\\' :: _ :: rest => patternLength inClass rest + 2
  | c :: rest =>
      if c = '/' && !inClass then 1
      else if c = '[' then patternLength true rest + 1
      else if c = ']' then patternLength false rest + 1
      else patternLength inClass rest + 1

/-- Words after which an operand can stand. -/
def operatorWords : List String :=
  ["return", "typeof", "instanceof", "in", "of", "new", "delete", "void", "throw", "case", "do",
    "else", "await", "yield", "default", "extends"]

/-- Words whose parentheses are followed by a statement. -/
def conditionWords : List String := ["if", "while", "for", "with"]

/-- After these a brace begins a block even where an operand can stand. -/
def blockLeads : List String :=
  [")", ";", "\x7b", "\x7d", "=>", "else", "do", "try", "finally", ""]

/-- Marks of more than one character, longer ones first. -/
def longMarks : List (List Char) :=
  ["===".toList, "!==".toList, "...".toList, "=>".toList, "==".toList, "!=".toList,
    "<=".toList, "?.".toList, "??".toList, "++".toList, "--".toList, "&&".toList, "||".toList]

/-- Whether the end tag of an element follows. -/
def holdsEndTag (name : List Char) : List Char → Bool
  | [] => false
  | c :: rest => ('<' :: '/' :: name).isPrefixOf (c :: rest) || holdsEndTag name rest

/-- Whether angle brackets here hold type parameters and do not begin an element. -/
def beginsParameters (rest : List Char) : Bool :=
  let name := rest.takeWhile isNamePart
  let after := (rest.drop name.length).dropWhile isSpace
  -- A lone name in angle brackets is a parameter unless an end tag of this name follows.
  !name.isEmpty && (after.head? = some ',' || after.head? = some '=' ||
    "extends ".toList.isPrefixOf after ||
    (name = "const".toList && after.head?.any isNameStart) ||
    (after.head? = some '>' && !holdsEndTag name after))

/-- Whether an element begins with an angle bracket. -/
def beginsElement (dialect : Dialect) (mode : Mode) (rest : List Char) : Bool :=
  dialect.elements && mode.expects &&
    (rest.head?.any fun next => isNameStart next || next = '>') &&
    !(dialect.typed && beginsParameters rest)

/-- The lexeme that begins in code. -/
def readCode (dialect : Dialect) (mode : Mode) (brackets : List Bool) (outer : List Frame)
    (c : Char) (rest : List Char) : Kind × Nat × Mode :=
  let opened (follows : Bool) : Kind × Nat × Mode :=
    (.openBracket, 0,
      { mode.after [c] true with frames := .code (follows :: brackets) :: outer })
  let closed : Kind × Nat × Mode :=
    match brackets with
    | follows :: others =>
        (.closeBracket, 0, { mode.after [c] follows with frames := .code others :: outer })
    | [] =>
        if outer.isEmpty then (.closeBracket, 0, mode.after [c] false)
        else (.closeBracket, 0, mode.within outer)
  let plain (kind : Kind) (more : Nat) (expects : Bool) : Kind × Nat × Mode :=
    (kind, more, mode.after (c :: rest.take more) expects)
  if isSpace c then (.blank, run isSpace rest, mode)
  else if c = '#' && mode.previous.isEmpty && rest.head? = some '!' then
    plain .shebang (run (· ≠ '\n') rest) true
  else if c = '/' && rest.head? = some '/' then (.comment, run (· ≠ '\n') rest, mode)
  else if c = '/' && rest.head? = some '*' then (.comment, blockLength (rest.drop 1) + 1, mode)
  else if c = '"' || c = '\'' then plain .text (quotedLength true c rest) false
  else if c = '`' then (.openBracket, 0, mode.within (.template :: .code brackets :: outer))
  else if isNameStart c then
    let more := run isNamePart rest
    let isWord := !mode.wasText [".", "?."] &&
      operatorWords.any fun word => (c :: rest.take more) == word.toList
    plain .name more isWord
  else if c.isDigit then plain .number (run (fun c => isNamePart c || c = '.') rest) false
  else if c = '(' then opened (mode.wasText conditionWords)
  else if c = '[' then opened false
  -- Where an operand is expected, a brace begins an object, unless a word or mark before it leads
  -- to a block.  A slash divides after an object and begins a pattern after a block.
  else if c = '{' then opened (!mode.expects || mode.wasText blockLeads)
  else if c = ')' || c = ']' || c = '}' then closed
  else if c = '<' && beginsElement dialect mode rest then
    (.openBracket, 0, mode.within (.tag false 0 :: .code brackets :: outer))
  else if c = '/' && mode.expects then
    let body := patternLength false rest
    plain .pattern (body + run isNamePart (rest.drop body)) false
  else
    let long := longMarks.find? fun mark => mark.isPrefixOf (c :: rest)
    let more := (long.map fun mark => mark.length - 1).getD 0
    let keeps := c = '!' && more = 0 || (c = '+' || c = '-') && more = 1
    plain .mark more (if keeps then mode.expects else true)

/-- The lexeme that begins in a template. -/
def readTemplate (mode : Mode) (outer : List Frame) (c : Char) (rest : List Char) :
    Kind × Nat × Mode :=
  if c = '`' then (.closeBracket, 0, mode.leave outer)
  else if c = '\\' then (.part, 1, mode)
  else if c = '$' && rest.head? = some '{' then
    (.openBracket, 1, mode.within (.code [] :: .template :: outer))
  else (.part, run (fun c => c ≠ '`' && c ≠ '\\' && c ≠ '$') rest, mode)

/-- The lexeme that begins in a tag.  The tag that ends an element also leaves its content. -/
def readTag (mode : Mode) (closing : Bool) (angles : Nat) (outer : List Frame) (c : Char)
    (rest : List Char) : Kind × Nat × Mode :=
  let inTag (angles : Nat) : Mode := { mode with frames := .tag closing angles :: outer }
  if isSpace c then (.blank, run isSpace rest, mode)
  else if c = '/' && rest.head? = some '/' then (.comment, run (· ≠ '\n') rest, mode)
  else if c = '/' && rest.head? = some '*' then (.comment, blockLength (rest.drop 1) + 1, mode)
  else if c = '/' && rest.head? = some '>' then (.closeBracket, 1, mode.leave outer)
  else if c = '"' || c = '\'' then (.text, quotedLength false c rest, mode)
  else if c = '{' then
    (.openBracket, 0, mode.within (.code [] :: .tag closing angles :: outer))
  else if c = '<' then (.part, 0, inTag (angles + 1))
  else if c = '>' then
    if angles ≠ 0 then (.part, 0, inTag (angles - 1))
    else if closing then (.closeBracket, 0, mode.leave (outer.drop 1))
    else (.part, 0, mode.within (.content :: outer))
  else (.part, 0, mode)

/-- The lexeme that begins in the content of an element. -/
def readContent (mode : Mode) (outer : List Frame) (c : Char) (rest : List Char) :
    Kind × Nat × Mode :=
  if c = '{' then (.openBracket, 0, mode.within (.code [] :: .content :: outer))
  else if c = '<' then
    if rest.head? = some '/' then (.part, 1, mode.within (.tag true 0 :: .content :: outer))
    else (.openBracket, 0, mode.within (.tag false 0 :: .content :: outer))
  else (.part, run (fun c => c ≠ '{' && c ≠ '<') rest, mode)

/-- The reader of the lexemes of a dialect. -/
def read (dialect : Dialect) : Lexeme.Reader Kind Mode := fun mode c rest =>
  match mode.frames with
  | .template :: outer => readTemplate mode outer c rest
  | .tag closing angles :: outer => readTag mode closing angles outer c rest
  | .content :: outer => readContent mode outer c rest
  | .code brackets :: outer => readCode dialect mode brackets outer c rest
  | [] => readCode dialect mode [] [] c rest

/-- What a lexeme does to the nesting. -/
def role (lexeme : Lexeme Kind) : Bracket :=
  match lexeme.kind with
  | .openBracket => .opens
  | .closeBracket => .closes
  | _ => .neither

/-- A lexeme that is not blank, with its depth. -/
abbrev Token := Nested Kind

namespace Token

def isName (token : Token) (text : String) : Bool := token.kind == .name && token.isText text

def isWord (token : Token) (words : List String) : Bool := words.any (isName token)

def isComment (token : Token) : Bool := token.kind == .comment

/-- Whether a token opens or closes with a given character at the outermost depth. -/
def isOuterBracket (token : Token) (bracket : Char) : Bool :=
  (token.kind == .openBracket || token.kind == .closeBracket) && token.isOuterMark bracket

end Token

/-- The tokens of a source. -/
def tokens (dialect : Dialect) (source : List Char) : List Token :=
  Nested.ofLexemes role 0 ((Lexeme.readAll (read dialect) .start source).filter
    (·.kind != .blank))

end CodeAtlas.Source.Script
