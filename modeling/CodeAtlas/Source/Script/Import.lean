import CodeAtlas.Source.Outline
import CodeAtlas.Source.Script.Statement

/-!
# Imports of TypeScript and JavaScript

Import statements, exports from other modules, and calls that load a module, wherever they stand
in a file, in the order in which they begin.
-/

namespace CodeAtlas.Source.Script

/-- A text without its quotation marks. -/
def textValue (literal : List Char) : String :=
  let isQuote (c : Char) : Bool := c = '"' || c = '\'' || c = '`'
  String.ofList (Text.dropEndWhile isQuote (literal.dropWhile isQuote))

/-- The name of an item in the braces of an import or export, before the name it gets. -/
def itemName? (item : List Token) : Option String :=
  match item.filter (!·.isComment) with
  | first :: second :: rest =>
      let marked := first.isWord ["type", "typeof"] &&
        (!second.isName "as" || rest.length != 1)
      some (if marked then second.string else first.string)
  | [first] => some first.string
  | [] => none

/-- The names of the items in the braces that open first. -/
def itemNames (tokens : List Token) : List String :=
  let items := (Nested.group tokens).1
  (Nested.cut (·.isOuterMark ',') items).filterMap itemName?

/-- The names that the clause of an import brings in, and the name it gives to all of them. -/
def clauseNames : List Token → List String × Option String
  | [] => ([], none)
  | token :: rest =>
      let (names, localName) := clauseNames rest
      if token.depth != 0 || token.isComment then (names, localName)
      else if token.isMark '*' then
        ([], (following (skipComments rest)).head?.map (·.string))
      else if token.isMark '{' then (itemNames (token :: rest) ++ names, localName)
      else if token.kind == .name then (token.string :: names, localName)
      else (names, localName)

/-- The clause of an import without the word that it brings in types. -/
def valueClause (clause : List Token) : List Token :=
  match clause with
  | first :: _ =>
      let next := following clause
      let isType := first.isWord ["type", "typeof"] && next.head?.any fun token =>
        token.isMark '{' || token.isMark '*' || token.kind == .name
      if isType then next else clause
  | [] => []

/-- Before the word that introduces the module: the clause; after it: the module. -/
def splitSource (tokens : List Token) : List Token × Option Token :=
  let isSource (token : Token) : Bool := token.depth == 0 && token.kind == .text
  let clause := tokens.takeWhile (!isSource ·)
  let named := (clause.reverse.dropWhile (·.isComment)).drop 1
  (named.reverse, tokens.find? isSource)

/-- The import of the tokens after the word for it. -/
def statementImport? (line : Nat) (tokens : List Token) : Option Import :=
  let begun := skipComments tokens
  if Head.assigns begun then do
    let clause := valueClause begun
    let after := following (clause.dropWhile (!·.isOuterMark '='))
    let called ← after.head?
    if !called.isName "require" then none
    else
      let source ← (following after).find? fun token => token.kind == .text
      return { Import.new (textValue source.text) .importStatement line with
        localName := clause.head?.map (·.string) }
  else do
    let (clause, source) := splitSource begun
    let (names, localName) := clauseNames (valueClause clause)
    return { Import.new (textValue (← source).text) .importStatement line with names, localName }

/-- The import of an export from another module, given the tokens after the word for it. -/
def exportImport? (line : Nat) (tokens : List Token) : Option Import := do
  let begun := valueClause (skipComments tokens)
  let first ← begun.head?
  let imported (names : List String) (source : Token) : Import :=
    { Import.new (textValue source.text) .importStatement line with names }
  if first.isMark '*' then
    let source ← (splitSource (begun.dropWhile fun token => !token.isOuter "from")).2
    return imported ["*"] source
  else if first.isMark '{' then
    let after := skipComments (Nested.group begun).2
    let word ← after.head?
    let source ← (following after).head?
    if word.isName "from" && source.kind == .text then
      return imported (itemNames begun) source
    else none
  else none

/-- The text that a call is given first, if that is all of its first argument. -/
def textArgument? (tokens : List Token) : Option Token := do
  let optional := if tokens.head?.any (·.isText "?.") then following tokens else tokens
  let after := skipComments (Nested.afterAngles 0 optional)
  let opening ← after.head?
  let argument ← (after.drop 1).head?
  let next ← (following (after.drop 1)).head?
  if opening.isMark '(' && argument.kind == .text && (next.isMark ',' || next.isMark ')') then
    some argument
  else none

/-- The tokens that are at least as deep as some depth, seen from that depth. -/
def leveled (depth : Nat) (tokens : List Token) : List Token :=
  (tokens.takeWhile fun token => depth ≤ token.depth).map (Nested.inside depth)

/-- The import of a call, given the tokens after the function. -/
def callImport? (line : Nat) (tokens : List Token) : Option Import :=
  (textArgument? tokens).map fun argument => .new (textValue argument.text) .requireCall line

/-- The import that begins with a token that another may precede. -/
def importAt? (previous : Option Token) (token : Token) (rest : List Token) : Option Import :=
  let line := token.row + 1
  let after := skipComments rest
  let isMember := previous.any fun before => before.isMark '.' || before.isText "?."
  let isNew := previous.any (·.isName "new")
  let next (test : Token → Bool) : Bool := after.head?.any test
  if isMember || token.kind != .name then none
  else if token.isText "require" then
    if isNew then none else callImport? line (leveled token.depth after)
  else if token.isText "import" then
    if next (·.isMark '(') then callImport? line (leveled token.depth after)
    else if next fun token => token.kind == .name || token.kind == .text || token.isMark '{' ||
        token.isMark '*' then statementImport? line (leveled token.depth after)
    else none
  else if token.isText "export" then exportImport? line (leveled token.depth after)
  else none

/-- The imports among some tokens.  `assigning` tells that the call of an import that gives a
name to a module is still to come: it is no import of its own. -/
def imports (previous : Option Token) (assigning : Bool) : List Token → List Import
  | [] => []
  | token :: rest =>
      if token.isComment then imports previous assigning rest
      else if assigning && token.isName "require" then imports (some token) false rest
      else
        let found := importAt? previous token rest
        let assigns := token.isName "import" && found.isSome &&
          !rest.head?.any (·.isMark '(') && Head.assigns (leveled token.depth rest)
        found.toList ++ imports (some token) (assigning || assigns) rest

end CodeAtlas.Source.Script
