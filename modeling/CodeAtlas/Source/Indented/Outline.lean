import CodeAtlas.Source.Outline
import CodeAtlas.Source.Indented.Line

/-!
# Outlines of Python files

Imports wherever they stand, classes and functions at the top level, constants, and the texts
that document them.
-/

namespace CodeAtlas.Source.Indented

/-- The pieces between the tokens that pass a test, and without them. -/
def cut (test : Token → Bool) (tokens : List Token) : List (List Token) :=
  tokens.foldr (fun token pieces =>
    if test token then [] :: pieces
    else match pieces with
      | piece :: others => (token :: piece) :: others
      | [] => [[token]]) [[]]

/-- The source from the beginning of the first token to the end of the last. -/
def spanText (source : Array Char) (tokens : List Token) : List Char :=
  match tokens.head?, tokens.getLast? with
  | some first, some last => slice source first.start last.stop
  | _, _ => []

/-! ## Imports -/

/-- The name of an item of an import, and its alias. -/
def importItem (source : Array Char) (tokens : List Token) : String × Option String :=
  let named := tokens.takeWhile (!·.isName "as")
  let localName := ((tokens.dropWhile (!·.isName "as")).drop 1).head?.map (·.string)
  (String.ofList (spanText source named), localName)

/-- The items between commas. -/
def importItems (source : Array Char) (tokens : List Token) : List (String × Option String) :=
  ((cut (·.isMark ",") tokens).filter (!·.isEmpty)).map (importItem source)

/-- The imports of `import a.b as c, d`. -/
def plainImports (source : Array Char) (line : Nat) (tokens : List Token) : List Import :=
  (importItems source tokens).map fun item =>
    { Import.new item.1 .importStatement line with localName := item.2 }

/-- The import of `from ..a.b import c as d, e`.  What is imported from the future of the
language is none. -/
def fromImport? (source : Array Char) (line : Nat) (tokens : List Token) : Option Import :=
  let origin := tokens.takeWhile (!·.isName "import")
  let listed := (tokens.dropWhile (!·.isName "import")).drop 1
  let dots := origin.takeWhile (·.isMark ".")
  let module := origin.dropWhile (·.isMark ".")
  if (origin.head?.map (·.isName "__future__")).getD false then none
  else
    let items := listed.filter fun token =>
      token.kind != .openBracket && token.kind != .closeBracket
    some {
      Import.new (String.ofList (spanText source module)) .fromImport line with
      names := (importItems source items).map (·.1)
      level := dots.length }

/-- The statements of a line: the pieces between semicolons and after colons. -/
def importStatements (line : Line) : List (List Token) :=
  cut (fun token => token.isOuter ";" || token.isOuter ":") line.content

/-- The imports of one statement. -/
def statementImports (source : Array Char) (tokens : List Token) : List Import :=
  match tokens with
  | first :: rest =>
      if first.isOuter "import" then plainImports source (first.row + 1) rest
      else if first.isOuter "from" then (fromImport? source (first.row + 1) rest).toList
      else []
  | [] => []

/-- All imports of some lines, in their order. -/
def imports (source : Array Char) (lines : List Line) : List Import :=
  lines.flatMap fun line => (importStatements line).flatMap (statementImports source)

/-! ## Documentation -/

/-- The content of a text without its prefix and quotation marks. -/
def textValue (literal : List Char) : List Char :=
  let body := literal.dropWhile isTextPrefix
  let between (quote : List Char) : Option (List Char) := do
    let rest ← Text.afterPrefix? quote body
    let inner ← Text.afterPrefix? quote.reverse rest.reverse
    return Text.trim inner.reverse
  (["\"\"\"".toList, "'''".toList, ['"'], ['\'']].findSome? between).getD body

/-- The text that a statement consists of or begins a tuple with. -/
def documentation (source : Array Char) (statement : List Token) : List Char :=
  match statement with
  | first :: rest =>
      if first.kind == .textOpen then
        let inner := rest.takeWhile fun token => token.depth != 0
        let after := rest.drop inner.length
        match after with
        | close :: next =>
            let ends := match (next.filter (!·.isExtra)).head? with
              | none => true
              | some token => token.isOuter ","
            if ends then textValue (slice source first.start close.stop) else []
        | [] => []
      else []
  | [] => []

/-- The first statement of a sequence of tokens on a line. -/
def firstStatement (tokens : List Token) : List Token :=
  tokens.takeWhile (!·.isOuter ";")

/-! ## Declarations -/

/-- The tokens before the colon that ends a header and the tokens after it.  The colon of a
function without name does not end a header; `pending` counts those to come. -/
def splitHeader (pending : Nat) : List Token → List Token × List Token
  | [] => ([], [])
  | token :: rest =>
      let continued (pending : Nat) : List Token × List Token :=
        let (header, body) := splitHeader pending rest
        (token :: header, body)
      if token.isOuter "lambda" then continued (pending + 1)
      else if token.isOuter ":" then
        if pending = 0 then ([token], rest) else continued (pending - 1)
      else continued pending

/-- A class or function: its tokens up to the colon, the statements on its own line, and the
lines of its block. -/
structure Definition where
  header : List Token
  inline : List Token
  block : List Line

/-- Where the body of a definition begins, or else where its header line ends. -/
def Definition.bodyStart (definition : Definition) : Nat :=
  let own := definition.inline.filter (!·.isExtra)
  let below := definition.block.flatMap (·.content)
  match own.head?, below.head? with
  | some first, _ => first.start
  | none, some first => first.start
  | none, none =>
      match (definition.header ++ definition.inline).getLast? with
      | some last => last.stop
      | none => 0

/-- The first statement of the body. -/
def Definition.firstStatement (definition : Definition) : List Token :=
  let own := definition.inline.filter (!·.isExtra)
  if own.isEmpty then
    match definition.block with
    | line :: _ => Indented.firstStatement (line.tokens.dropWhile (·.isExtra))
    | [] => []
  else Indented.firstStatement (definition.inline.dropWhile (·.isExtra))

/-- The name after a keyword. -/
def nameAfter? (keyword : String) (tokens : List Token) : Option String :=
  match (tokens.filter (!·.isExtra)).dropWhile (!·.isOuter keyword) with
  | _ :: name :: _ => if name.kind == .name then some name.string else none
  | _ => none

/-- Whether a line begins a class. -/
def beginsClass (line : Line) : Bool :=
  match line.content with
  | first :: _ => first.isOuter "class"
  | [] => false

/-- Whether a line begins a function. -/
def beginsFunction (line : Line) : Bool :=
  match line.content with
  | first :: second :: _ =>
      first.isOuter "def" || (first.isOuter "async" && second.isOuter "def")
  | _ => false

/-- The definition that a line begins, with the lines of its block. -/
def definition (line : Line) (block : List Line) : Definition :=
  let (header, inline) := splitHeader 0 (line.tokens.dropWhile (·.isExtra))
  ⟨header, inline, block⟩

/-- The tokens between the first outer bracket of a header and its end. -/
def argumentTokens (header : List Token) : List Token :=
  match header.dropWhile fun token =>
      !(token.kind == .openBracket && token.depth == 0 && token.text == ['(']) with
  | _ :: rest => rest.takeWhile fun token => token.depth != 0
  | [] => []

/-- The arguments between commas.  A comment within an argument belongs to it; any other stands
by itself.  `current` is the argument being read and `held` the comments after it, both in
reverse. -/
def arguments (current held : List Token) : List Token → List (List Token)
  | [] => finish current held
  | token :: rest =>
      if token.depth == 1 && token.isMark "," then finish current held ++ arguments [] [] rest
      else if token.isExtra && token.depth == 1 then
        if current.isEmpty then [token] :: arguments [] [] rest
        else arguments current (token :: held) rest
      else arguments (token :: (held ++ current)) [] rest
where
  /-- The argument read so far and the comments after it. -/
  finish (current held : List Token) : List (List Token) :=
    (if current.isEmpty then [] else [current.reverse]) ++ held.reverse.map ([·])

/-- Whether an argument is given by name. -/
def isKeywordArgument (argument : List Token) : Bool :=
  match argument.filter (!·.isExtra) with
  | name :: equals :: _ => name.kind == .name && equals.isMark "="
  | _ => false

/-- The base classes of a header. -/
def bases (source : Array Char) (header : List Token) : List String :=
  let all := arguments [] [] (argumentTokens header)
  (all.filter (!isKeywordArgument ·)).map fun argument =>
    String.ofList (spanText source argument)

/-- The functions defined directly in a block. -/
def methods (block : List Line) : List String :=
  let level := (block.head?.map (·.level)).getD 0
  block.filterMap fun line =>
    if line.level == level && beginsFunction line then nameAfter? "def" line.content else none

/-- The declaration of a class or a function. -/
def defined? (source : Array Char) (line : Line) (block : List Line) : Option Declaration :=
  let found := definition line block
  let declare (keyword : String) (kind : InterfaceKind) (members : List String)
      (detail : DeclarationDetail) : Option Declaration := do
    let name ← nameAfter? keyword found.header
    let first ← found.header.head?
    return {
      name, kind, members, detail
      signature := headerText (slice source first.start found.bodyStart)
      doc := String.ofList (documentation source found.firstStatement)
      line := first.row + 1 }
  if beginsClass line then
    declare "class" .class (methods block) (.classBases (bases source found.header))
  else if beginsFunction line then
    let isAsync := (line.content.head?.map (·.isOuter "async")).getD false
    declare "def" .function [] (.functionAsync isAsync)
  else none

/-- Names of constants: capital letters, digits and underscores with at least one letter. -/
def isConstantName (name : List Char) : Bool :=
  name.any Char.isUpper && name.all fun c => c.isUpper || c.isDigit || c = '_'

/-- The declaration of a constant that a statement assigns or annotates. -/
def constant? (source : Array Char) (statement : List Token) : Option Declaration :=
  match statement.filter (!·.isExtra) with
  | name :: next :: _ =>
      if name.kind == .name && isConstantName name.text && (next.isMark "=" || next.isMark ":")
      then
        let last := ((statement.filter (!·.isExtra)).getLast?).getD name
        let text := slice source name.start last.stop
        let signature := Text.trim ((Text.lines text).headD [])
        some ⟨name.string, .const, String.ofList signature, "", [], name.row + 1, .plain⟩
      else none
  | _ => none

/-- The words that begin a statement with a body of its own. -/
def compoundWords : List String :=
  ["if", "elif", "else", "for", "while", "try", "except", "finally", "with", "async"]

/-- Whether the statements of a line stand in the body of the first. -/
def isCompound (line : Line) : Bool :=
  match line.content with
  | first :: _ => compoundWords.any first.isOuter
  | [] => false

/-- The declarations of lines at the top level, each with the lines below it. -/
def declarations (source : Array Char) : List Line → List Declaration
  | [] => []
  | line :: rest =>
      let own :=
        if line.level != 0 then []
        else if beginsClass line || beginsFunction line then
          (defined? source line (rest.takeWhile (·.level != 0))).toList
        else if isCompound line then []
        else (cut (·.isOuter ";") line.tokens).filterMap (constant? source)
      own ++ declarations source rest

/-- The documentation of a file. -/
def moduleDoc (source : Array Char) (lines : List Line) : List Char :=
  match lines with
  | line :: _ =>
      documentation source (firstStatement (line.tokens.dropWhile (·.kind == .comment)))
  | [] => []

/-- The outline of a Python file. -/
def outline (text : String) : CodeAtlas.Outline :=
  let characters := text.toList
  let source := characters.toArray
  let lines := lines characters
  .ofParts characters (moduleDoc source lines) (imports source lines)
    (declarations source lines)

end CodeAtlas.Source.Indented
