import CodeAtlas.Source.Crate.Item
import CodeAtlas.Source.Crate.Use

/-!
# Outlines of Rust files

The uses, modules and foreign crates at the top level of a file, its items, and the comments
that document them.
-/

namespace CodeAtlas.Source.Crate

/-! ## Headers -/

def isBrace (token : Token) : Bool := token.isOuterMark '{'

def isSemicolon (token : Token) : Bool := token.isOuterMark ';'

/-- Where the body of an item may begin. -/
def isBodyStart (word : Keyword) (token : Token) : Bool :=
  match word with
  | .struct => isBrace token || isSemicolon token || token.isOuterMark '(' || token.isOuter "where"
  | _ => isBrace token || isSemicolon token

/-- The tokens of an item before its body, and those from its body on.  Only a body of braces
follows a condition on the parameters of a struct. -/
def splitBody (word : Keyword) (tokens : List Token) : List Token × List Token :=
  let (header, after) := Nested.spanAngled (isBodyStart word) 0 (withoutVisibility tokens)
  let before := tokens.take (tokens.length - (header ++ after).length)
  match after with
  | next :: _ =>
      if next.isOuter "where" then
        let (condition, body) := Nested.spanAngled isBrace 0 after
        (before ++ header ++ condition, body)
      else (before ++ header, after)
  | [] => (before ++ header, [])

/-- The tokens between the brackets of a body. -/
def bodyTokens (body : List Token) : List Token :=
  if body.head?.any isSemicolon then [] else (Nested.group body).1

/-- The header of an item that ends where some tokens begin, or else with the item. -/
def headerBefore (source : Array Char) (item following : List Token) : String :=
  let stop := match following.head?, item.getLast? with
    | some token, _ => if isSemicolon token then token.stop else token.start
    | none, some last => last.stop
    | none, none => 0
  headerText (slice source ((item.head?.map (·.start)).getD 0) stop)

/-- The first of some tokens that is no comment. -/
def firstToken? (tokens : List Token) : Option Token := tokens.find? (!·.isComment)

/-- The name that stands first. -/
def nameOf? (tokens : List Token) : Option String := do
  let token ← firstToken? tokens
  if token.kind == .name then some token.string else none

/-! ## Members -/

def isComma (token : Token) : Bool := token.isOuterMark ','

/-- What follows the attributes and comments at the beginning. -/
def withoutAttributes (tokens : List Token) : List Token :=
  ((pieces tokens).dropWhile fun
    | .comment _ | .attribute _ _ => true
    | _ => false).flatMap Piece.tokens

/-- The name that begins a member of a body, after attributes and visibility. -/
def memberName? (member : List Token) : Option String :=
  nameOf? (withoutVisibility (withoutAttributes member))

/-- The functions of a body; those without a body of their own if wanted. -/
def methodNames (withoutBody : Bool) (body : List Token) : List String :=
  (pieces body).filterMap fun
    | .item .function tokens =>
        if withoutBody || tokens.getLast?.any (·.isMark '}') then
          nameOf? (keyword tokens).2
        else none
    | _ => none

/-! ## Declarations -/

/-- Whether the modifiers of a function hold a word. -/
def modifiersContain (source : Array Char) (word : String) (tokens : List Token) : Bool :=
  let modifiers := (withoutVisibility tokens).takeWhile isModifier
  Text.isInfix word.toList (Nested.spanText source modifiers)

/-- Whether the word that joins a trait and a type begins the tokens.  The same word before
lifetimes in angle brackets belongs to a type. -/
def joinsTrait (tokens : List Token) : Bool :=
  match tokens with
  | first :: second :: third :: _ =>
      first.isOuter "for" &&
        !(second.isMark '<' && (third.kind == .lifetime || third.isMark '>'))
  | first :: _ => first.isOuter "for"
  | [] => false

/-- The tokens of the trait of an implementation and those of its type, if a trait is named. -/
def splitTrait (angles : Nat) (before : List Token) :
    List Token → Option (List Token × List Token)
  | [] => none
  | token :: rest =>
      if angles == 0 && joinsTrait (token :: rest) then some (before.reverse, rest)
      else splitTrait (Nested.anglesAfter angles token) (token :: before) rest

/-- Without the comments at the ends. -/
def trimComments (tokens : List Token) : List Token :=
  (((tokens.dropWhile (·.isComment)).reverse).dropWhile (·.isComment)).reverse

/-- The name of the type of an implementation, and its trait. -/
def implementation (source : Array Char) (header : List Token) : String × Option String :=
  let subject := Nested.afterAngles 0 (keyword header).2
  let subject := (Nested.spanAngled (·.isOuter "where") 0 subject).1
  let text (tokens : List Token) : List Char := Nested.spanText source (trimComments tokens)
  let typeName (tokens : List Token) : String :=
    String.ofList (Text.trim ((text tokens).takeWhile (· ≠ '<')))
  match splitTrait 0 [] subject with
  | some (traitTokens, typeTokens) =>
      let named := (trimComments traitTokens).dropWhile fun token =>
        token.isMark '!' || token.isComment
      (typeName typeTokens, some (String.ofList (text named)))
  | none => (typeName subject, none)

/-- The declaration of an item whose documentation is known. -/
def declaration? (source : Array Char) (doc : String) (word : Keyword) (tokens : List Token) :
    Option Declaration := do
  let first ← tokens.head?
  let (header, body) := splitBody word tokens
  let declare (name : String) (kind : InterfaceKind) (members : List String)
      (detail : DeclarationDetail) : Declaration :=
    { name, kind, doc, members, detail
      signature := headerBefore source tokens body
      line := first.row + 1 }
  let name? := nameOf? (keyword tokens).2
  match word with
  | .function =>
      if body.head?.any isBrace then
        return declare (← name?) .function []
          (.functionAsync (modifiersContain source "async" tokens))
      else none
  | .struct =>
      let fields := if body.head?.any isBrace then
          (Nested.cutAngled isComma 0 [] (bodyTokens body)).filterMap memberName?
        else []
      return declare (← name?) .struct fields .plain
  | .enum =>
      let variants := (Nested.cut isComma (bodyTokens body)).filterMap memberName?
      return declare (← name?) .enum variants .plain
  | .trait => return declare (← name?) .trait (methodNames true (bodyTokens body)) .plain
  | .impl =>
      let (name, traitName) := implementation source header
      return declare name .impl (methodNames false (bodyTokens body)) (.implTrait traitName)
  | .macroRules =>
      let name ← name?
      return { declare name .macroRule [] .plain with signature := "macro_rules! " ++ name }
  | .const | .static =>
      let named := (keyword tokens).2.dropWhile fun token =>
        token.isComment || token.isName "mut" || token.isName "ref"
      let assigned := (Nested.spanAngled (·.isOuterMark '=') 0 tokens).2.drop 1
      let given := assigned.dropWhile fun token : Token => token.isComment
      return { declare (← nameOf? named) .const [] .plain with
        signature := headerBefore source tokens given }
  | .typeAlias =>
      if (Nested.spanAngled (·.isOuterMark '=') 0 tokens).2.isEmpty then none
      else
        return { declare (← name?) .typeAlias [] .plain with
          signature := headerBefore source tokens [] }
  | _ => none

/-- The imports of an item. -/
def itemImports (source : Array Char) (word : Keyword) (tokens : List Token) : List Import :=
  let line := (tokens.head?.map (·.row)).getD 0 + 1
  let after := (keyword tokens).2
  match word with
  | .use => useImports source line after.dropLast
  | .module =>
      if tokens.getLast?.any isSemicolon then
        (nameOf? after).toList.map fun name => .new name .modDeclaration line
      else []
  | .externCrate =>
      let localName := nameOf? ((after.dropWhile (!·.isName "as")).drop 1)
      (nameOf? after).toList.map fun name =>
        { Import.new name .useDeclaration line with localName }
  | _ => []

/-! ## Documentation -/

/-- Comments that document what stands below them. -/
def isOuterDoc (comment : List Char) : Bool :=
  ("///".toList.isPrefixOf comment && !"////".toList.isPrefixOf comment) ||
    "/**".toList.isPrefixOf comment

/-- Comments that document the file they stand in. -/
def isInnerDoc (comment : List Char) : Bool :=
  "//!".toList.isPrefixOf comment || "/*!".toList.isPrefixOf comment

/-- The comments at the top of a file that document it.  Other comments may precede them but not
stand between them. -/
def innerDocLines (found : Bool) : List Piece → List (List Char)
  | .comment token :: rest =>
      if isInnerDoc token.text then stripComment token.text :: innerDocLines true rest
      else if found then []
      else innerDocLines false rest
  | .attribute true _ :: rest => innerDocLines found rest
  | _ => []

/-! ## The file -/

/-- The declarations of pieces; `before` holds the siblings before them, the nearest first. -/
def declarations (source : Array Char) (before : List Sibling) :
    List Piece → List Declaration
  | [] => []
  | piece :: rest =>
      let sibling := piece.sibling
      let own := match piece with
        | .item word tokens =>
            declaration? source (Sibling.docAbove isOuterDoc sibling.row before) word tokens
        | _ => none
      own.toList ++ declarations source (sibling :: before) rest

/-- The imports of pieces. -/
def imports (source : Array Char) (found : List Piece) : List Import :=
  found.flatMap fun
    | .item word tokens => itemImports source word tokens
    | _ => []

/-- The outline of a Rust file. -/
def outline (text : String) : CodeAtlas.Outline :=
  let characters := text.toList
  let source := characters.toArray
  let found := pieces (tokens characters)
  let doc := Text.joinWith ['\n'] (innerDocLines false found)
  .ofParts characters doc (imports source found) (declarations source [] found)

end CodeAtlas.Source.Crate
