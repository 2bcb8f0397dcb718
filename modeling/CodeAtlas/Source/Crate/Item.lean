import CodeAtlas.Source.Crate.Lexer
import CodeAtlas.Source.Sibling

/-!
# Items of Rust

The tokens of a file, or of the body of a trait or implementation, grouped into comments,
attributes and items.  A header may hold angle brackets, and braces between those do not begin a
body.
-/

namespace CodeAtlas.Source.Crate

/-- The keyword that tells what an item is. -/
inductive Keyword
  | function
  | struct
  | enum
  | trait
  | impl
  | macroRules
  | const
  | static
  | typeAlias
  | use
  | module
  | externCrate
  | binding
  | macroCall
  | other
deriving DecidableEq, Repr

/-- What ends an item besides a semicolon. -/
inductive Ending
  /-- Nothing, whatever braces it holds. -/
  | semicolon
  /-- The brace that ends its body. -/
  | body
  /-- The bracket that ends the arguments, where the next item follows. -/
  | arguments
deriving DecidableEq, Repr

/-- What ends an item with a keyword. -/
def Keyword.ending : Keyword → Ending
  | .const | .static | .typeAlias | .use | .externCrate | .binding => .semicolon
  | .macroCall => .arguments
  | _ => .body

/-- The words that may stand before the word for a function. -/
def modifierWords : List String := ["async", "default", "const", "unsafe", "extern"]

/-- Whether a token may stand before the word for a function. -/
def isModifier (token : Token) : Bool :=
  token.kind == .literal || token.isComment || modifierWords.any token.isName

/-- The tokens of an item after its visibility. -/
def withoutVisibility (tokens : List Token) : List Token :=
  match tokens with
  | first :: rest =>
      if first.isName "pub" then
        let next := rest.dropWhile (·.isComment)
        match next with
        | opening :: _ =>
            if opening.isMark '(' then (Nested.group next).2.dropWhile (·.isComment) else next
        | [] => []
      else if first.isName "crate" && rest.head?.any (·.kind == .name) then rest
      else tokens
  | [] => []

/-- Whether tokens begin with the call of a macro. -/
def callsMacro : List Token → Bool
  | name :: mark :: rest =>
      name.kind == .name &&
        (mark.isMark '!' && rest.head?.any (·.kind == .openBracket) ||
          mark.isText "::" && callsMacro rest)
  | _ => false

/-- The keyword of an item, and the tokens after it. -/
def keyword (tokens : List Token) : Keyword × List Token :=
  let visible := withoutVisibility tokens
  let afterModifiers := visible.dropWhile isModifier
  match afterModifiers with
  | next :: rest =>
      if next.isName "fn" then (.function, rest)
      else if (visible.head?.any (·.isName "const")) then (.const, visible.drop 1)
      else if next.isName "struct" then (.struct, rest)
      else if next.isName "enum" then (.enum, rest)
      else if next.isName "trait" then (.trait, rest)
      else if next.isName "impl" then (.impl, rest)
      else if next.isName "static" then (.static, rest)
      else if next.isName "type" then (.typeAlias, rest)
      else if next.isName "use" then (.use, rest)
      else if next.isName "mod" then (.module, rest)
      else if next.isName "let" then (.binding, rest)
      else if next.isName "crate" && visible.head?.any (·.isName "extern") then
        (.externCrate, rest)
      else if next.isName "macro_rules" && rest.head?.any (·.isMark '!') then
        (.macroRules, rest.drop 1)
      else if callsMacro visible then (.macroCall, rest)
      else (.other, rest)
  | [] => (.other, [])

/-- Whether an item may begin with some tokens, and none goes on with what is before them. -/
def beginsItem (tokens : List Token) : Bool :=
  (tokens.find? (!·.isComment)).all fun token =>
    token.isMark '#' || token.kind == .name && !token.isName "as"

/-- Whether an item ends with a token, given how many angle brackets are open before it and the
tokens after it. -/
def endsItem (ending : Ending) (angles : Nat) (token : Token) (rest : List Token) : Bool :=
  token.isOuterMark ';' || match ending with
    | .semicolon => false
    | .body => angles == 0 && token.isOuterMark '}'
    | .arguments =>
        token.depth == 0 && token.kind == .closeBracket &&
          (token.isMark '}' || beginsItem rest)

/-- The tokens of an item and the tokens after it. -/
def spanItem (ending : Ending) (angles : Nat) : List Token → List Token × List Token
  | [] => ([], [])
  | token :: rest =>
      if endsItem ending angles token rest then ([token], rest)
      else
        let (item, after) := spanItem ending (Nested.anglesAfter angles token) rest
        (token :: item, after)

theorem length_spanItem (ending : Ending) (angles : Nat) (tokens : List Token) :
    (spanItem ending angles tokens).2.length ≤ tokens.length - 1 := by
  induction tokens generalizing angles with
  | nil => simp [spanItem]
  | cons token rest ih =>
      simp only [spanItem]
      split
      · simp
      · have := ih (Nested.anglesAfter angles token)
        simp only [List.length_cons]
        omega

/-- The tokens of the item that comes first and the tokens after it. -/
def firstItem (tokens : List Token) : List Token × List Token :=
  spanItem (keyword tokens).1.ending 0 tokens

theorem length_firstItem (token : Token) (rest : List Token) :
    (firstItem (token :: rest)).2.length ≤ rest.length :=
  length_spanItem _ 0 (token :: rest)

/-- The tokens of an attribute and the tokens after it. -/
def spanAttribute (tokens : List Token) : List Token × List Token :=
  let bracket (token : Token) : Bool := token.isOuterMark ']'
  (tokens.takeWhile (!bracket ·) ++ (tokens.dropWhile (!bracket ·)).take 1,
    (tokens.dropWhile (!bracket ·)).drop 1)

theorem length_spanAttribute (token : Token) (rest : List Token) :
    (spanAttribute (token :: rest)).2.length ≤ rest.length := by
  have := (List.dropWhile_sublist (fun token : Token => !token.isOuterMark ']')
    (l := token :: rest)).length_le
  simp only [spanAttribute, List.length_drop, List.length_cons] at this ⊢
  omega

/-- A comment, an attribute or an item. -/
inductive Piece
  | comment (token : Token)
  | attribute (inner : Bool) (tokens : List Token)
  | shebang (token : Token)
  | item (keyword : Keyword) (tokens : List Token)

namespace Piece

def tokens : Piece → List Token
  | .comment token | .shebang token => [token]
  | .attribute _ tokens | .item _ tokens => tokens

/-- What a piece is to the declarations after it. -/
def sibling (piece : Piece) : Sibling :=
  let role : Role := match piece with
    | .comment _ => .comment
    | .attribute false _ => .attribute
    | _ => .other
  let text := match piece with
    | .comment token => token.text
    | _ => []
  { role, text
    row := (piece.tokens.head?.map (·.row)).getD 0
    endRow := (piece.tokens.getLast?.map (·.endRow)).getD 0 }

end Piece

/-- Whether tokens begin an attribute, and whether it is one of what is around it. -/
def attributeStart? : List Token → Option Bool
  | first :: second :: rest =>
      if first.isMark '#' then
        if second.isMark '[' then some false
        else if second.isMark '!' && rest.head?.any (·.isMark '[') then some true
        else none
      else none
  | _ => none

/-- Group tokens into pieces. -/
def pieces (tokens : List Token) : List Piece :=
  match tokens with
  | [] => []
  | token :: rest =>
      match token.kind with
      | .comment => .comment token :: pieces rest
      | .shebang => .shebang token :: pieces rest
      | _ =>
          match attributeStart? (token :: rest) with
          | some inner =>
              .attribute inner (spanAttribute (token :: rest)).1 ::
                pieces (spanAttribute (token :: rest)).2
          | none =>
              .item (keyword (token :: rest)).1 (firstItem (token :: rest)).1 ::
                pieces (firstItem (token :: rest)).2
termination_by tokens.length
decreasing_by
  · simp
  · simp
  · have := length_spanAttribute token rest
    simp only [List.length_cons]
    omega
  · have := length_firstItem token rest
    simp only [List.length_cons]
    omega

end CodeAtlas.Source.Crate
