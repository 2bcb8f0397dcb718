import CodeAtlas.Source.Script.Statement

/-!
# Members of TypeScript and JavaScript

The names of the methods of a class, the members of an interface and the variants of an
enumeration.
-/

namespace CodeAtlas.Source.Script

/-- Words that may stand before the name of a member. -/
def modifierWords : List String :=
  ["public", "private", "protected", "static", "override", "readonly", "abstract", "async",
    "get", "set", "accessor", "declare"]

/-- Whether what follows a word shows that the word is a name and no modifier. -/
def endsName (token : Token) : Bool :=
  token.isMark '(' || token.isMark '<' || token.isMark '=' || token.isMark ';' ||
    token.isMark ':' || token.isMark '?' || token.isMark '!' || token.isMark ',' ||
    token.isMark '{'

/-- The modifiers of a member, the star of a generator among them, and what follows. -/
def splitModifiers : List Token → List Token × List Token
  | [] => ([], [])
  | token :: rest =>
      let modifies := token.isMark '*' || token.isComment ||
        (token.isWord modifierWords && !((skipComments rest).head?.all endsName))
      if modifies then
        let (modifiers, after) := splitModifiers rest
        (token :: modifiers, after)
      else ([], token :: rest)

/-- The name of a member, and the tokens after it and after the mark that it is optional. -/
def memberName? (source : Array Char) (tokens : List Token) :
    Option (String × List Token) := do
  let first ← tokens.head?
  let (name, after) : List Token × List Token :=
    if first.isMark '[' then
      let length := ((Nested.group tokens).1).length + 2
      (tokens.take length, tokens.drop length)
    else ([first], tokens.drop 1)
  let rest := skipComments after
  let marked := rest.head?.any fun token => token.isMark '?' || token.isMark '!'
  some (String.ofList (Nested.spanText source name), if marked then following rest else rest)

/-- Whether parameters stand first. -/
def beginsParameterList (tokens : List Token) : Bool :=
  tokens.head?.any fun token => token.isMark '(' || token.isMark '<'

/-! ## Classes -/

/-- How a member of a class ends: methods with a body, other members with a semicolon or a
line. -/
def memberShape (source : Array Char) (tokens : List Token) : Shape :=
  let (_, named) := splitModifiers (skipDecorators tokens)
  if named.head?.any (·.isName "static") then .braces
  else match memberName? source named with
    | some (_, after) =>
        if beginsParameterList after then .function else .plain .expression
    | none => .plain .expression

/-- The tokens of the member that comes first and the tokens after it. -/
def firstMember (dialect : Dialect) (source : Array Char) (tokens : List Token) :
    List Token × List Token :=
  spanStatement dialect (memberShape source tokens) .start tokens

theorem length_firstMember (dialect : Dialect) (source : Array Char) (token : Token)
    (rest : List Token) :
    (firstMember dialect source (token :: rest)).2.length ≤ rest.length :=
  length_spanStatement dialect _ .start (token :: rest)

/-- The name of a member of a class, if it is a method with a body or an abstract one. -/
def methodName? (source : Array Char) (member : List Token) : Option String := do
  let (modifiers, named) := splitModifiers (skipDecorators member)
  let (name, after) ← memberName? source named
  let complete := member.getLast?.any fun token => token.isOuterBracket '}'
  if beginsParameterList after && (complete || modifiers.any (·.isName "abstract")) then
    some name
  else none

/-- The names of the methods of a class. -/
def methodNames (dialect : Dialect) (source : Array Char) (body : List Token) : List String :=
  match body with
  | [] => []
  | token :: rest =>
      if token.isComment then methodNames dialect source rest
      else
        (methodName? source (firstMember dialect source (token :: rest)).1).toList ++
          methodNames dialect source (firstMember dialect source (token :: rest)).2
termination_by body.length
decreasing_by
  · simp
  · have := length_firstMember dialect source token rest
    simp only [List.length_cons]
    omega

/-! ## Interfaces -/

/-- The members of an interface; `current` is the one being read, in reverse. -/
def interfaceMembers (dialect : Dialect) (angles : Nat) (current : List Token) :
    List Token → List (List Token)
  | [] => [current.reverse]
  | token :: rest =>
      let separates := angles == 0 && (token.isOuterMark ';' || token.isOuterMark ',')
      let lineEnds := angles == 0 && token.depth == 0 && !token.isComment &&
        rest.any (!·.isComment) && (lineEnd? dialect .type token rest).isSome
      if separates then current.reverse :: interfaceMembers dialect 0 [] rest
      else if lineEnds then
        (token :: current).reverse :: interfaceMembers dialect 0 [] rest
      else interfaceMembers dialect (token.anglesAfter angles) (token :: current) rest

/-- Whether the tokens between square brackets name an index. -/
def namesIndex (tokens : List Token) : Bool :=
  match tokens.filter (!·.isComment) with
  | _ :: second :: _ => second.isMark ':' || second.isName "in"
  | _ => false

/-- The name of a member of an interface, if it is a method or a property.  What can be called,
constructed or indexed has no name. -/
def signatureName? (source : Array Char) (member : List Token) : Option String := do
  let (_, named) := splitModifiers (skipComments member)
  let first ← named.head?
  let (name, after) ← memberName? source named
  let constructs := first.isName "new" && beginsParameterList after
  let indexes := first.isMark '[' && namesIndex (Nested.group named).1
  let signed := first.isMark '+' || first.isMark '-'
  if first.isMark '(' || first.isMark '<' || signed || constructs || indexes then none
  else some name

/-- The names of the members of an interface. -/
def signatureNames (dialect : Dialect) (source : Array Char) (body : List Token) :
    List String :=
  (interfaceMembers dialect 0 [] body).filterMap (signatureName? source)

/-! ## Enumerations -/

/-- The name of a variant.  A variant without a value is named by a word. -/
def variantName? (source : Array Char) (variant : List Token) : Option String := do
  let (name, after) ← memberName? source (skipComments variant)
  let first ← (skipComments variant).head?
  if after.head?.any (·.isMark '=') || (first.kind == .name && !first.text.contains '#') then
    some name
  else none

/-- The names of the variants of an enumeration. -/
def variantNames (source : Array Char) (body : List Token) : List String :=
  (Nested.cut (·.isOuterMark ',') body).filterMap (variantName? source)

end CodeAtlas.Source.Script
