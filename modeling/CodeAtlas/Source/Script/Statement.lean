import CodeAtlas.Source.Script.Lexer
import CodeAtlas.Source.Sibling

/-!
# Statements of TypeScript and JavaScript

The tokens of a file or a body grouped into comments and statements.  A statement ends with its
body, with a semicolon, or where a line ends and what follows cannot go on with it.
-/

namespace CodeAtlas.Source.Script

/-! ## Where lines end statements -/

/-- Words that cannot be the last of a statement. -/
def openWords : List String :=
  ["typeof", "instanceof", "in", "new", "delete", "extends", "implements", "import",
    "export", "const", "let", "var", "function", "class", "interface", "enum", "case", "await",
    "keyof", "infer", "is", "as", "satisfies", "asserts", "default"]

/-- Whether a token can be the last of a statement. -/
def canEnd (token : Token) : Bool :=
  match token.kind with
  | .number | .text | .pattern | .closeBracket => true
  | .name => !token.isWord openWords
  | .mark => token.isText "++" || token.isText "--" || token.isMark '>' || token.isMark '!'
  | _ => false

/-- What a statement that a line can end is made of: expressions, types, or the header of a
function, which goes on with a body on the next line. -/
inductive Manner
  | expression
  | type
  | header
deriving DecidableEq, Repr

/-- Whether a token on a new line goes on with the statement before it. -/
def continues (dialect : Dialect) (manner : Manner) (token : Token) : Bool :=
  match token.text with
  | [] => false
  | c :: rest =>
      if token.kind == .name then token.isWord ["in", "instanceof"]
      else if c = '(' || c = '[' then !(dialect.typed && manner == .type)
      else if c = '{' then manner == .header
      else if c = '+' || c = '-' then rest.isEmpty
      else if c = '!' then rest.head? = some '='
      else if c = '.' then dialect.typed || !rest.isEmpty
      else c = '`' || c = ',' || c = ';' || c = '*' || c = '%' || c = '>' || c = '<' || c = '=' ||
        c = '?' || c = '^' || c = '|' || c = '&' || c = '/' || c = ':'

/-- The comments on the line where a row ends. -/
def commentsOn (row : Nat) : List Token → List Token
  | [] => []
  | token :: rest =>
      if token.isComment && token.row == row then token :: commentsOn token.endRow rest else []

/-- Whether the end of a line ends the statement whose last token is given, and how many of the
tokens after it belong to it: with types, the comments on its last line. -/
def lineEnd? (dialect : Dialect) (manner : Manner) (last : Token) (rest : List Token) :
    Option Nat :=
  let kept := if dialect.typed then (commentsOn last.endRow rest).length else 0
  match rest.find? fun token : Token => !token.isComment with
  | none => some kept
  | some next =>
      if last.endRow < next.row && canEnd last && !continues dialect manner next then some kept
      else none

/-! ## Shapes of statements -/

/-- How a statement ends. -/
inductive Shape
  /-- With a semicolon or a line. -/
  | plain (manner : Manner)
  /-- With the text that names a module, and then as a plain one. -/
  | sourced
  /-- With a body in braces. -/
  | braces
  /-- With a body in braces, or without one as a plain one. -/
  | function
deriving DecidableEq, Repr

/-- How far a statement has been read. -/
structure Progress where
  /-- The last token that is no comment. -/
  previous : Option Token
  angles : Nat
  /-- Whether the braces that are open belong to a type. -/
  inType : Bool
  /-- Whether the text that names a module has been seen. -/
  seenText : Bool

namespace Progress

def start : Progress := ⟨none, 0, false, false⟩

/-- Marks and words after which a brace belongs to a type. -/
def beforeType (token : Token) : Bool :=
  token.isMark ':' || token.isMark '|' || token.isMark '&' || token.isText "=>" ||
    token.isName "is"

/-- Whether a token is the text that names a module; a text after `as` is a name that is
given. -/
def isSource (progress : Progress) (token : Token) : Bool :=
  token.depth == 0 && token.kind == .text && !progress.previous.any (·.isName "as")

/-- The progress after one more token. -/
def next (progress : Progress) (token : Token) : Progress :=
  if token.isComment then progress
  else
    let inType := if token.isOuterBracket '{' then progress.previous.any beforeType
      else progress.inType && !token.isOuterBracket '}'
    { previous := some token
      angles := token.anglesAfter progress.angles
      inType
      seenText := progress.seenText || progress.isSource token }

end Progress

/-- Whether a statement ends with a token, and how many comments after it belong to it. -/
def endsWith? (dialect : Dialect) (shape : Shape) (progress : Progress) (token : Token)
    (rest : List Token) : Option Nat :=
  let bodyEnds := token.isOuterBracket '}' && progress.angles == 0 && !progress.inType
  if token.isOuterMark ';' then some 0
  else if token.depth != 0 || token.isComment then none
  else match shape with
    | .plain manner => lineEnd? dialect manner token rest
    | .braces => if bodyEnds then some 0 else none
    | .function => if bodyEnds then some 0 else lineEnd? dialect .header token rest
    | .sourced =>
        if progress.seenText || progress.isSource token then
          lineEnd? dialect .expression token rest
        else none

/-- The tokens of a statement and the tokens after it. -/
def spanStatement (dialect : Dialect) (shape : Shape) (progress : Progress) :
    List Token → List Token × List Token
  | [] => ([], [])
  | token :: rest =>
      match endsWith? dialect shape progress token rest with
      | some comments => (token :: rest.take comments, rest.drop comments)
      | none =>
          let (statement, after) := spanStatement dialect shape (progress.next token) rest
          (token :: statement, after)

theorem length_spanStatement (dialect : Dialect) (shape : Shape) (progress : Progress)
    (tokens : List Token) :
    (spanStatement dialect shape progress tokens).2.length ≤ tokens.length - 1 := by
  induction tokens generalizing progress with
  | nil => simp [spanStatement]
  | cons token rest ih =>
      simp only [spanStatement]
      split
      · simp
      · have := ih (progress.next token)
        simp only [List.length_cons]
        omega

/-! ## Kinds of statements -/

/-- What a statement declares. -/
inductive Form
  | «class»
  | function
  | variables
  | interface
  | typeAlias
  | enum
  | other
deriving DecidableEq, Repr

/-- The tokens from the first one on that is no comment. -/
def skipComments (tokens : List Token) : List Token := tokens.dropWhile (·.isComment)

/-- What follows the first token, without the comments before it. -/
def following (tokens : List Token) : List Token := skipComments (tokens.drop 1)

/-- The tokens after a decorator; `named` tells that its name goes on. -/
def afterDecorator (named : Bool) : List Token → List Token
  | [] => []
  | token :: rest =>
      if token.depth != 0 || token.isComment || token.kind == .openBracket ||
          token.kind == .closeBracket then afterDecorator named rest
      else if token.isMark '@' || token.isMark '.' then afterDecorator true rest
      else if named then afterDecorator false rest
      else token :: rest

/-- The tokens after the decorators that may stand first. -/
def skipDecorators (tokens : List Token) : List Token :=
  let begun := skipComments tokens
  if begun.head?.any (·.isMark '@') then afterDecorator false begun else begun

/-- Whether a token names something. -/
def isNaming (token : Token) : Bool := token.kind == .name || token.kind == .text

/-- What follows names between dots, given what follows the first one. -/
def afterPath : List Token → List Token
  | dot :: name :: rest => if dot.isMark '.' then afterPath rest else dot :: name :: rest
  | tokens => tokens

/-- What some tokens declare and how the declaration ends. -/
def declared (tokens : List Token) : Form × Shape :=
  let begun := skipDecorators tokens
  let second := following begun
  match begun with
  | [] => (.other, .plain .expression)
  | first :: _ =>
      let named := second.head?.any (isNaming ·)
      if first.isName "class" then (.class, .braces)
      else if first.isName "abstract" && second.head?.any (·.isName "class") then
        (.class, .braces)
      else if first.isName "function" then (.function, .function)
      else if first.isName "async" && second.head?.any (·.isName "function") then
        (.function, .function)
      else if first.isName "interface" && named then (.interface, .braces)
      else if first.isName "enum" && named then (.enum, .braces)
      else if first.isName "const" && second.head?.any (·.isName "enum") then (.enum, .braces)
      else if first.isName "type" && second.head?.any (·.kind == .name) then
        (.typeAlias, .plain .type)
      else if first.isWord ["const", "let", "var"] then (.variables, .plain .expression)
      else if first.isWord ["namespace", "module"] && named then
        if (afterPath (following second)).head?.any (·.isMark '{') then (.other, .braces)
        else (.other, .plain .expression)
      else if first.isName "global" && second.head?.any (·.isMark '{') then (.other, .braces)
      else if first.isMark '{' then (.other, .braces)
      else (.other, .plain .expression)

/-- What a statement is: what it declares, whether it exports that, how it ends, and the tokens
from its declaration on. -/
structure Head where
  form : Form
  exported : Bool
  shape : Shape
  declaration : List Token

namespace Head

/-- What stands after the word that exports. -/
def ofExport (rest : List Token) : Head :=
  let clause (shape : Shape) : Head := ⟨.other, true, shape, rest⟩
  match rest with
  | [] => clause (.plain .expression)
  | first :: _ =>
      let second := following rest
      if first.isName "default" then
        let (form, shape) := declared second
        match form with
        | .other => clause (.plain .expression)
        | _ => ⟨form, true, shape, second⟩
      else if first.isMark '*' then clause .sourced
      else if first.isName "type" && second.head?.any (·.isMark '*') then clause .sourced
      else if first.isMark '{' || first.isMark '=' || first.isWord ["as", "import"] then
        clause (.plain .expression)
      else
        let (form, shape) := declared rest
        ⟨form, true, shape, rest⟩

/-- Whether the tokens after the word that imports give a name to something that is not named by
a path alone. -/
def assigns (tokens : List Token) : Bool :=
  (tokens.takeWhile fun token => token.kind != .text).any (·.isOuterMark '=')

/-- The head of the statement that begins with some tokens. -/
def ofTokens (tokens : List Token) : Head :=
  let bare := skipDecorators tokens
  let second := following bare
  let whole : Head :=
    let (form, shape) := declared tokens
    ⟨form, false, shape, tokens⟩
  match bare with
  | [] => whole
  | first :: _ =>
      if first.isName "export" then ofExport second
      else if first.isName "import" && !second.head?.any fun next =>
          next.isMark '(' || next.isMark '.' then
        ⟨.other, false, if assigns second then .plain .expression else .sourced, tokens⟩
      else if first.isName "declare" && second.head?.any (·.kind == .name) then
        ⟨.other, false, (declared second).2, tokens⟩
      else whole

end Head

/-! ## Statements with a statement for their body -/

/-- Words that a statement follows, some of them with a condition between. -/
def conditionalWords : List String := ["if", "for", "while", "with", "switch", "catch"]

/-- Words that a statement follows at once. -/
def leadingWords : List String := ["else", "do", "try", "finally"]

/-- What follows a condition, which may stand first. -/
def afterCondition (tokens : List Token) : List Token :=
  let opening := if tokens.head?.any (·.isName "await") then following tokens else tokens
  if opening.head?.any (·.isMark '(') then skipComments (Nested.group opening).2 else tokens

/-- The statement after a word for it and its condition, or after a label. -/
def body? : List Token → Option (List Token)
  | [] => none
  | first :: rest =>
      let second := skipComments rest
      if first.isWord conditionalWords then some (afterCondition second)
      else if first.isWord leadingWords then some second
      else if first.kind == .name && second.head?.any (·.isMark ':') then some (following second)
      else none

/-- What follows the condition at the end of a loop whose body comes first. -/
def afterLoop (tokens : List Token) : List Token :=
  let begun := skipComments tokens
  if begun.head?.any (·.isName "while") then
    let after := (Nested.group (following begun)).2
    let next := skipComments after
    if next.head?.any (·.isMark ';') then next.drop 1 else after
  else tokens

theorem length_skipComments (tokens : List Token) :
    (skipComments tokens).length ≤ tokens.length :=
  (List.dropWhile_sublist _).length_le

theorem length_following (tokens : List Token) : (following tokens).length ≤ tokens.length := by
  have := length_skipComments (tokens.drop 1)
  simp only [following, List.length_drop] at this ⊢
  omega

theorem length_afterCondition (tokens : List Token) :
    (afterCondition tokens).length ≤ tokens.length := by
  have afterGroup (opening : List Token) (short : opening.length ≤ tokens.length) :
      (if opening.head?.any (·.isMark '(') then skipComments (Nested.group opening).2
        else tokens).length ≤ tokens.length := by
    have skipped := length_skipComments (Nested.group opening).2
    have grouped := Nested.length_group opening
    by_cases opens : opening.head?.any (·.isMark '(') = true <;> simp only [opens] <;> simp
    omega
  apply afterGroup
  by_cases awaits : tokens.head?.any (·.isName "await") = true <;> simp only [awaits]
  · exact length_following tokens
  · exact Nat.le_refl _

theorem length_body {tokens body : List Token} (found : body? tokens = some body) :
    body.length < tokens.length := by
  cases tokens with
  | nil => simp [body?] at found
  | cons first rest =>
      have skipped := length_skipComments rest
      have condition := length_afterCondition (skipComments rest)
      have next := length_following (skipComments rest)
      simp only [body?] at found
      simp only [List.length_cons]
      split at found
      · cases found
        omega
      · split at found
        · cases found
          omega
        · split at found
          · cases found
            omega
          · cases found

theorem length_afterLoop (tokens : List Token) :
    (afterLoop tokens).length ≤ tokens.length := by
  have begun := length_skipComments tokens
  have next := length_following (skipComments tokens)
  have grouped := Nested.length_group (following (skipComments tokens))
  have after := length_skipComments (Nested.group (following (skipComments tokens))).2
  simp only [afterLoop]
  split
  · split
    · simp only [List.length_drop]
      omega
    · omega
  · exact Nat.le_refl _

/-- The tokens of the statement that comes first and the tokens after it. -/
def firstStatement (dialect : Dialect) (tokens : List Token) : List Token × List Token :=
  match _ : body? tokens with
  | some body =>
      let after := (firstStatement dialect body).2
      let rest := if tokens.head?.any (·.isName "do") then afterLoop after else after
      (tokens.take (tokens.length - rest.length), rest)
  | none => spanStatement dialect (Head.ofTokens tokens).shape .start tokens
termination_by tokens.length
decreasing_by exact length_body (by assumption)

theorem length_firstStatement_le (dialect : Dialect) (tokens : List Token) :
    (firstStatement dialect tokens).2.length ≤ tokens.length - 1 := by
  fun_induction firstStatement dialect tokens with
  | case1 tokens body found after rest shorter =>
      have := length_body found
      have : rest.length ≤ after.length := by
        simp only [rest]
        split
        · exact length_afterLoop _
        · exact Nat.le_refl _
      simp only [after] at this
      simp only
      omega
  | case2 tokens _ => exact length_spanStatement dialect _ .start tokens

theorem length_firstStatement (dialect : Dialect) (token : Token) (rest : List Token) :
    (firstStatement dialect (token :: rest)).2.length ≤ rest.length :=
  length_firstStatement_le dialect (token :: rest)

/-- A comment, the line at the top that names a program, or a statement. -/
inductive Piece
  | comment (token : Token)
  | shebang (token : Token)
  | statement (tokens : List Token)

namespace Piece

def tokens : Piece → List Token
  | .comment token | .shebang token => [token]
  | .statement tokens => tokens

/-- What a piece is to the declarations after it. -/
def sibling (piece : Piece) : Sibling :=
  let (role, text) : Role × List Char := match piece with
    | .comment token => (.comment, token.text)
    | _ => (.other, [])
  { role, text
    row := (piece.tokens.head?.map (·.row)).getD 0
    endRow := (piece.tokens.getLast?.map (·.endRow)).getD 0 }

end Piece

/-- Group tokens into pieces. -/
def pieces (dialect : Dialect) (tokens : List Token) : List Piece :=
  match tokens with
  | [] => []
  | token :: rest =>
      match token.kind with
      | .comment => .comment token :: pieces dialect rest
      | .shebang => .shebang token :: pieces dialect rest
      | _ =>
          .statement (firstStatement dialect (token :: rest)).1 ::
            pieces dialect (firstStatement dialect (token :: rest)).2
termination_by tokens.length
decreasing_by
  · simp
  · simp
  · have := length_firstStatement dialect token rest
    simp only [List.length_cons]
    omega

end CodeAtlas.Source.Script
