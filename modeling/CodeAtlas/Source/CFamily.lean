import CodeAtlas.Source.Braces
import CodeAtlas.Source.Outline
import CodeAtlas.Text.Pattern

/-!
# Outlines of C and C++ files

C and C++ are read line by line.  Included files keep their delimiters, which tell headers of the
system from others.  What stands in a namespace counts as standing outside.
-/

namespace CodeAtlas.Source.CFamily

open CodeAtlas.Text CodeAtlas.Text.Pattern

/-! ## Patterns of lines -/

/-- The mark and the word of a line for the preprocessor. -/
def directive (name : String) : Pattern := sequence [blanks, literal "#", blanks, literal name]

def includeLine : Pattern := sequence [
  directive "include", blanks,
  .capture 1 (sequence [.one fun c => c = '<' || c = '"', several fun c => c ≠ '>' && c ≠ '"',
    .one fun c => c = '>' || c = '"'])]

def defineLine : Pattern := sequence [directive "define", gap, .capture 1 name]

/-- The parameters of a template, if there are any. -/
def templateParameters : Pattern := optional (sequence [
  literal "template", blanks, literal "<", without ['>'], literal ">", blanks])

/-- The line that begins a record or an enumeration: a brace or nothing follows its name and
bases. -/
def recordLine : Pattern := sequence [
  optional (.seq (literal "typedef") gap), templateParameters,
  .capture 1 (choice [literal "struct", literal "class", literal "union",
    .seq (literal "enum") (optional (.seq gap (literal "class")))]),
  gap, .capture 2 name, blanks,
  optional (.seq (literal ":") (without ['{', ';'])),
  .either (literal "\x7b") .atEnd]

def typedefLine : Pattern := sequence [
  literal "typedef", gap, .run false (· ≠ '\n'), .capture 1 name, blanks, literal ";", blanks,
  .atEnd]

def usingLine : Pattern := sequence [
  literal "using", gap, .capture 1 name, blanks, literal "="]

/-- Characters of types. -/
def isTypePart (c : Char) : Bool :=
  isWord c || isBlank c || c = '*' || c = '&' || c = ':' || c = '<' || c = '>' || c = ','

/-- A type and the marks before the name that it is given to. -/
def typeBeforeName : Pattern := sequence [
  .one isInitial, .run false isTypePart, .one fun c => isBlank c || c = '*' || c = '&',
  .run true (· = '*'), optional (literal "&")]

def functionLine : Pattern := sequence [
  templateParameters, typeBeforeName,
  .capture 1 (.seq (.one isInitial) (.run true fun c => isWord c || c = ':' || c = '~')),
  blanks, literal "("]

def memberLine : Pattern := sequence [
  blanks, typeBeforeName, .capture 1 name, blanks,
  optional (sequence [literal "[", without [']'], literal "]"]), blanks,
  .one fun c => c = ';' || c = '(' || c = '=']

/-- A line that opens a namespace or the declarations of another language, and nothing else. -/
def scopeLine : Pattern := sequence [
  blanks,
  .either (sequence [literal "namespace", .before isWord, without [';', '{']])
    (sequence [literal "extern", gap, literal "\"C\"", blanks]),
  literal "\x7b", blanks, .atEnd]

def enumerator : Pattern := sequence [
  blanks, .capture 1 (.seq (.one isInitial) (.run true isWord)), blanks,
  optional (.seq (literal "=") (without [','])), optional (literal ","), blanks, .atEnd]

/-- Words that are no names of functions although parentheses follow them. -/
def statementWords : List String :=
  ["if", "while", "for", "switch", "return", "sizeof", "else"]

/-! ## Reading lines -/

/-- What has been read. -/
structure Reading where
  /-- The number of lines read. -/
  count : Nat
  /-- The lines read, the last one first. -/
  before : List (List Char)
  braces : Braces
  /-- The imports, the last one first. -/
  imports : List Import
  /-- The declarations in their order. -/
  declarations : List Declaration
  /-- The position of the declaration whose body is open. -/
  opened : Option Nat

namespace Reading

/-- Nothing read. -/
def start : Reading := ⟨0, [], .start, [], [], none⟩

/-- Add a declaration unless one of its kind and name is there, and tell its position. -/
def addOnce (reading : Reading) (declaration : Declaration) : Reading × Nat :=
  let same (other : Declaration) : Bool :=
    other.kind == declaration.kind && other.name == declaration.name
  match reading.declarations.findIdx? same with
  | some position => (reading, position)
  | none =>
      ({ reading with declarations := reading.declarations ++ [declaration] },
        reading.declarations.length)

/-- A declaration on the line being read. -/
def declaration (reading : Reading) (name : List Char) (kind : InterfaceKind)
    (signature : String) (detail : DeclarationDetail) : Declaration where
  name := String.ofList name
  kind := kind
  signature := signature
  doc := commentAbove reading.before
  members := []
  line := reading.count + 1
  detail := detail

def declare (reading : Reading) (name : List Char) (kind : InterfaceKind) (signature : String)
    (detail : DeclarationDetail) : Reading :=
  (reading.addOnce (reading.declaration name kind signature detail)).1

/-- The members that a line of a body declares, by the kind of what it is the body of. -/
def membersOf (kind : InterfaceKind) (raw : List Char) : List (List Char) :=
  let trimmed := trim raw
  let captured (pattern : Pattern) (text : List Char) : List (List Char) :=
    ((pattern.match? text).map fun captures => part captures 1).toList
  if trimmed.isEmpty || "//".toList.isPrefixOf trimmed || [':'].isSuffixOf trimmed then []
  else match kind with
    | .enum => (splitOn ',' trimmed).flatMap (captured enumerator)
    | .struct => captured memberLine raw
    | .class => if raw.contains '(' then captured memberLine raw else []
    | _ => []

/-- Read a line of a body. -/
def takeMember (reading : Reading) (raw : List Char) : Reading :=
  match reading.opened with
  | some position =>
      let extend (declaration : Declaration) : Declaration :=
        { declaration with
          members := declaration.members ++
            (membersOf declaration.kind raw).map String.ofList }
      { reading with declarations := reading.declarations.modify position extend }
  | none => reading

/-- Read the line that begins a record or an enumeration.  Its body is open if the line leaves one
brace open, or if the next line begins with a brace. -/
def takeRecord (reading : Reading) (language : Language) (next raw : List Char)
    (captures : Captures) : Reading :=
  let word := part captures 1
  let isClass := word = "class".toList
  let (kind, detail) : InterfaceKind × DeclarationDetail :=
    if isClass then (.class, .classBases [])
    else if "enum".toList.isPrefixOf word then (.enum, .plain)
    else (.struct, .plain)
  if isClass && language != .cpp then reading
  else
    let declaration := reading.declaration (part captures 2) kind (lineHeader raw) detail
    let (added, position) := reading.addOnce declaration
    let opens := reading.braces.depth = 1 || ['{'].isPrefixOf (trimStart next)
    { added with opened := if opens then some position else none }

/-- Read the line that begins a function. -/
def takeFunction (reading : Reading) (raw : List Char) (captures : Captures) : Reading :=
  let qualified := part captures 1
  let name := ((splitAt? "::".toList qualified.reverse).map (·.1.reverse)).getD qualified
  if statementWords.contains (String.ofList name) then reading
  else reading.declare name .function (lineHeader raw) (.functionAsync false)

/-- Read a line outside of all braces. -/
def takeOutside (reading : Reading) (language : Language) (next raw : List Char) : Reading :=
  let typeAlias := (usingLine.match? raw).or (typedefLine.match? raw)
  match defineLine.match? raw, recordLine.match? raw, typeAlias, functionLine.match? raw with
  | some captures, _, _, _ =>
      reading.declare (part captures 1) .macroRule (String.ofList (trim raw)) .plain
  | none, some captures, _, _ => reading.takeRecord language next raw captures
  | none, none, some captures, _ =>
      reading.declare (part captures 1) .typeAlias (lineHeader raw) .plain
  | none, none, none, some captures => reading.takeFunction raw captures
  | none, none, none, none => reading

/-- Read a line that another follows. -/
def take (language : Language) (reading : Reading) (raw next : List Char) : Reading :=
  let read :=
    -- The brace of a scope does not count, so what stands in it is outside of all braces.
    if (scopeLine.match? raw).isSome then reading
    else
      let depth := reading.braces.depth
      let current := { reading with braces := reading.braces.advance raw }
      match includeLine.match? raw with
      | some captures =>
          let found := Import.new (String.ofList (part captures 1)) .includeDirective
            (reading.count + 1)
          { current with imports := found :: reading.imports }
      | none =>
          if depth = 0 then
            -- Any line that begins outside of all braces ends the open body, also one that begins
            -- with the brace of that body.
            let closed := { current with opened := none }
            if isTrivia raw then closed else closed.takeOutside language next raw
          else if depth = 1 then current.takeMember raw
          else current
  { read with count := reading.count + 1, before := raw :: reading.before }

end Reading

/-- Read lines one after the other. -/
def readLines (language : Language) (reading : Reading) : List (List Char) → Reading
  | [] => reading
  | line :: rest => readLines language (reading.take language line (rest.headD [])) rest

/-- The outline of a C or C++ file. -/
def outline (language : Language) (text : String) : CodeAtlas.Outline :=
  let characters := text.toList
  let reading := readLines language .start (lines characters)
  .ofParts characters (leadingComment characters) reading.imports.reverse
    (reading.declarations.filter fun declaration => language.admits declaration.kind)

end CodeAtlas.Source.CFamily
