import CodeAtlas.Source.Script.Import
import CodeAtlas.Source.Script.Member
import CodeAtlas.Source.Script.Variable

/-!
# Outlines of TypeScript and JavaScript files

The imports anywhere in a file, and the classes, functions, variables and types that the
statements at its top level declare.
-/

namespace CodeAtlas.Source.Script

/-! ## Declarations -/

/-- The tokens before the body of a declaration, and those from its body on. -/
def splitBody (tokens : List Token) : List Token × List Token :=
  Nested.spanAngled (fun token => Token.isOuterBracket token '{') 0 tokens

/-- The text from the first of some tokens up to the first of others, or to the end of the
former. -/
def textBefore (source : Array Char) (tokens following : List Token) : List Char :=
  let start := (tokens.head?.map (·.start)).getD 0
  let stop := match following.head?, tokens.getLast? with
    | some token, _ => token.start
    | none, some last => last.stop
    | none, none => start
  slice source start stop

/-- Without the comments at the end. -/
def dropLastComments (tokens : List Token) : List Token :=
  (tokens.reverse.dropWhile (·.isComment)).reverse

/-- The name after a keyword. -/
def nameAfter? (keyword : String) (tokens : List Token) : Option String := do
  let after := following (tokens.dropWhile fun token => !token.isName keyword)
  let named := if after.head?.any (·.isMark '*') then following after else after
  let name ← named.head?
  if name.kind == .name && !name.isWord ["extends", "implements"] then some name.string else none

/-- Remove a beginning as often as it stands there. -/
def dropAll (beginning : List Char) (count : Nat) (text : List Char) : List Char :=
  match count with
  | 0 => text
  | count + 1 =>
      match Text.afterPrefix? beginning text with
      | some rest => dropAll beginning count rest
      | none => text

/-- What a class extends and implements. -/
def heritage (source : Array Char) (header : List Token) : List String :=
  let begins (token : Token) : Bool :=
    token.depth == 0 && token.isWord ["extends", "implements"]
  let after := header.dropWhile fun token => !token.isName "class"
  let named := following after
  let tokens := (Nested.spanAngled begins 0 named).2
  if tokens.isEmpty then []
  else
    let text := Nested.spanText source (dropLastComments tokens)
    [String.ofList (Text.trim (dropAll "extends".toList text.length text))]

/-- The header of an arrow function, without the arrow. -/
def arrowHeader (header : String) : String :=
  let text := header.toList.reverse
  String.ofList (Text.trimEnd (dropAll ['>', '='] text.length text).reverse)

/-- The declarations of a statement that declares variables: of functions, and of constants that
are exported. -/
def variableDeclarations (dialect : Dialect) (source : Array Char) (exported : Bool)
    (doc : String) (tokens : List Token) : List Declaration :=
  let isConst := tokens.head?.any (·.isName "const")
  (declarators dialect tokens.length (following tokens)).filterMap fun declarator => do
    let name ← declarator.name
    let body? := (arrowBody? declarator.ownValue).or (functionBody? dialect declarator.ownValue)
    match body? with
    | some body =>
        let isAsync := "async".toList.isPrefixOf (Nested.spanText source declarator.ownValue)
        some {
          name, doc
          kind := .function
          signature := arrowHeader (headerText (textBefore source tokens body))
          members := []
          line := declarator.row + 1
          detail := .functionAsync isAsync }
    | none =>
        if isConst && exported then
          some {
            name, doc
            kind := .const
            signature := headerText (textBefore source tokens declarator.value)
            members := []
            line := declarator.row + 1
            detail := .plain }
        else none

/-- The declarations of a statement whose documentation is known. -/
def statementDeclarations (dialect : Dialect) (source : Array Char) (doc : String)
    (statement : List Token) : List Declaration :=
  let head := Head.ofTokens statement
  let tokens := head.declaration
  let (header, body) := splitBody tokens
  let members := (Nested.group body).1
  let declare (keyword : String) (kind : InterfaceKind) (following : List Token)
      (members : List String) (detail : DeclarationDetail) : List Declaration :=
    match nameAfter? keyword tokens with
    | some name =>
        [{ name, kind, doc, members, detail
           signature := headerText (textBefore source tokens following)
           line := (tokens.head?.map (·.row)).getD 0 + 1 }]
    | none => []
  match head.form with
  | .class =>
      declare "class" .class body (methodNames dialect source members)
        (.classBases (heritage source header))
  | .function =>
      if tokens.getLast?.any (·.isMark '}') then
        let parameters := tokens.dropWhile fun token : Token => !token.isOuterMark '('
        let isAsync := "async".toList.isPrefixOf (Nested.spanText source tokens)
        declare "function" .function (functionBody?.bodyFrom none parameters) []
          (.functionAsync isAsync)
      else []
  | .variables => variableDeclarations dialect source head.exported doc tokens
  | .interface =>
      declare "interface" .interface body (signatureNames dialect source members) .plain
  | .typeAlias => declare "type" .typeAlias [] [] .plain
  | .enum => declare "enum" .enum body (variantNames source members) .plain
  | .other => []

/-! ## The file -/

/-- Comments that document what stands below them. -/
def isDoc (comment : List Char) : Bool := "/**".toList.isPrefixOf comment

/-- The declarations of pieces; `before` holds the siblings before them, the nearest first. -/
def declarations (dialect : Dialect) (source : Array Char) (before : List Sibling) :
    List Piece → List Declaration
  | [] => []
  | piece :: rest =>
      let sibling := piece.sibling
      let own := match piece with
        | .statement tokens =>
            statementDeclarations dialect source
              (Sibling.docAbove isDoc sibling.row before) tokens
        | _ => []
      own ++ declarations dialect source (sibling :: before) rest

/-- The dialect of a grammar; grammars of other languages find nothing in scripts. -/
def dialect? : Language.Grammar → Option Dialect
  | .typeScript => some ⟨true, false⟩
  | .tsx => some ⟨true, true⟩
  | .javaScript => some ⟨false, true⟩
  | _ => none

/-- The dialect of a file: by its extension, or else by its language. -/
def dialectOf? (language : Language) (path : String) : Option Dialect :=
  match Language.Grammar.ofPath? path with
  | some grammar => dialect? grammar
  | none => dialect? (if language = .typeScript then .typeScript else .javaScript)

/-- The source without a first line that names the program to run it. -/
def withoutShebang (source : List Char) : List Char :=
  match source with
  | '#' :: '!' :: rest => (rest.dropWhile (· ≠ '\n')).drop 1
  | _ => source

/-- The outline of a TypeScript or JavaScript file. -/
def outline (language : Language) (path text : String) : CodeAtlas.Outline :=
  let characters := text.toList
  let source := characters.toArray
  let doc := leadingComment (withoutShebang characters)
  match dialectOf? language path with
  | some dialect =>
      let found := tokens dialect characters
      let declared := declarations dialect source [] (pieces dialect found)
      .ofParts characters doc (imports none false found)
        (declared.filter fun declaration => language.admits declaration.kind)
  | none => .ofParts characters doc [] []

end CodeAtlas.Source.Script
