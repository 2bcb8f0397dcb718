import CodeAtlas.Source.Script.Statement

/-!
# Variables of TypeScript and JavaScript

A statement declares variables between commas: each has a name or a pattern, a type if wanted,
and a value if wanted.  Some values are functions.
-/

namespace CodeAtlas.Source.Script

/-- Whether angle brackets that open before some tokens close again around types, so that
arguments or the end of an expression follow. -/
def enclosesTypes (angles : Nat) : List Token → Bool
  | [] => false
  | token :: rest =>
      if token.depth != 0 || token.isComment then enclosesTypes angles rest
      else if token.isMark '>' then
        match angles with
        | 0 => match skipComments rest with
          | [] => true
          | next :: _ => next.isMark '(' || next.isMark '`' || next.isMark ';' ||
              next.isMark ',' || next.isMark '.'
        | angles + 1 => enclosesTypes angles rest
      else if token.isMark '<' then enclosesTypes (angles + 1) rest
      else if token.kind == .mark then
        (token.isMark '.' || token.isMark ',' || token.isMark '|' || token.isMark '&' ||
          token.isMark '?' || token.isMark ':' || token.isText "=>" || token.isText "...") &&
          enclosesTypes angles rest
      else token.kind != .pattern && enclosesTypes angles rest

/-- The tokens of an expression up to a comma or semicolon outside of brackets and of angle
brackets around types, and the tokens from there on. -/
def spanValue (dialect : Dialect) (angles : Nat) (previous : Option Token) :
    List Token → List Token × List Token
  | [] => ([], [])
  | token :: rest =>
      if angles == 0 && (token.isOuterMark ',' || token.isOuterMark ';') then
        ([], token :: rest)
      else
        let opens := dialect.typed && token.kind == .mark && token.isOuterMark '<' &&
          (angles != 0 || !previous.any canEnd ||
            previous.any (·.kind == .name) && enclosesTypes 0 rest)
        let closes := token.kind == .mark && token.isOuterMark '>'
        let next := if opens then angles + 1 else if closes then angles - 1 else angles
        let (value, after) := spanValue dialect next (some token) rest
        (token :: value, after)

/-! ## Values that are functions -/

/-- The tokens from the body of an arrow function on, if the value is one. -/
def arrowBody? (value : List Token) : Option (List Token) :=
  let isArrow (token : Token) : Bool := token.depth == 0 && token.isText "=>"
  let arrow (after : List Token) : Option (List Token) :=
    if after.head?.any isArrow then some (following after)
    else if after.head?.any (·.isMark ':') then
      match (Nested.spanAngled isArrow 0 after).2 with
      | [] => none
      | found => some (following found)
    else none
  let plain (tokens : List Token) : Option (List Token) :=
    match tokens with
    | first :: _ =>
        if first.kind == .name then
          if (following tokens).head?.any isArrow then arrow (following tokens) else none
        else
          let parameters := skipComments (Nested.afterAngles 0 tokens)
          if parameters.head?.any (·.isMark '(') then
            arrow (skipComments (Nested.group parameters).2)
          else none
    | [] => none
  match plain value with
  | some body => some body
  | none => if value.head?.any (·.isName "async") then plain (following value) else none

/-- The tokens from the body of a function that is written out, if the value is one and is
nothing more.  Generators do not count. -/
def functionBody? (dialect : Dialect) (value : List Token) : Option (List Token) :=
  let named := if value.head?.any (·.isName "async") then following value else value
  if named.head?.any (·.isName "function") && !(following named).head?.any (·.isMark '*') then
    let (function, after) := spanStatement dialect .function .start value
    if (skipComments after).isEmpty && function.getLast?.any fun last => last.isMark '}' then
      let body := function.dropWhile fun token : Token => !token.isOuterMark '('
      some (bodyFrom none body)
    else none
  else none
where
  /-- The tokens from the brace on that does not belong to a type. -/
  bodyFrom (previous : Option Token) : List Token → List Token
    | [] => []
    | token :: rest =>
        if token.isOuterBracket '{' && !previous.any Progress.beforeType then token :: rest
        else bodyFrom (if token.isComment then previous else some token) rest

/-! ## Declarators -/

/-- One variable of a statement. -/
structure Declarator where
  /-- Its name, if it is no pattern. -/
  name : Option String
  row : Nat
  /-- The tokens of its value and all that follow in the statement, if there is a value. -/
  value : List Token
  /-- The tokens of its value alone. -/
  ownValue : List Token

/-- Whether a variable has no value and nothing more of it follows. -/
def endsDeclarator (token : Token) : Bool :=
  token.isOuterMark '=' || token.isOuterMark ',' || token.isOuterMark ';'

/-- The variable that some tokens begin, and the tokens after it. -/
def firstDeclarator? (dialect : Dialect) (tokens : List Token) :
    Option (Declarator × List Token) := do
  let first ← tokens.head?
  let name := if first.kind == .name then some first.string else none
  let (_, after) := Nested.spanAngled endsDeclarator 0 tokens
  if after.head?.any (·.isMark '=') then
    let value := following after
    let (own, rest) := spanValue dialect 0 none value
    some (⟨name, first.row, value, own⟩, following rest)
  else some (⟨name, first.row, [], []⟩, following after)

/-- The variables that some tokens declare, at most so many. -/
def declarators (dialect : Dialect) : Nat → List Token → List Declarator
  | 0, _ => []
  | limit + 1, tokens =>
      match firstDeclarator? dialect (skipComments tokens) with
      | some (declarator, rest) => declarator :: declarators dialect limit rest
      | none => []

end CodeAtlas.Source.Script
