import CodeAtlas.Source.Braces
import CodeAtlas.Source.Outline
import CodeAtlas.Text.Pattern

/-!
# Outlines of Go files

Go is read line by line.  Imports and constants may stand in blocks of parentheses, and the fields
of a struct and the methods of an interface in blocks of braces.  A method is a member of the
struct that it names as its receiver.
-/

namespace CodeAtlas.Source.Go

open CodeAtlas.Text CodeAtlas.Text.Pattern

/-! ## Patterns of lines -/

def isPathPart (c : Char) : Bool := isWord c || c = '.'

/-- A name in front if wanted, and a path in quotation marks. -/
def importSpec : Pattern := sequence [
  optional (.seq (.capture 1 (several isPathPart)) gap),
  literal "\"", .capture 2 (several (· ≠ '"')), literal "\""]

/-- An import on a line of its own. -/
def importLine : Pattern := sequence [literal "import", gap, importSpec]

/-- Parameters of a type in square brackets, if there are any. -/
def typeParameters : Pattern :=
  optional (sequence [literal "[", without [']'], literal "]"])

/-- A function, with the type of its receiver if it is a method. -/
def functionLine : Pattern := sequence [
  literal "func", gap,
  optional (sequence [
    literal "(", blanks, optional (.seq name gap), optional (literal "*"), blanks,
    .capture 1 name, typeParameters, blanks, literal ")", blanks]),
  .capture 2 name]

/-- A type, with the word for its kind if it is a struct or an interface. -/
def typeLine : Pattern := sequence [
  literal "type", gap, .capture 1 name, typeParameters, gap,
  optional (.seq (literal "=") blanks),
  optional (.capture 3 (word ["struct", "interface"]))]

/-- A constant on a line of its own. -/
def constantLine : Pattern := sequence [literal "const", gap, .capture 1 name]

/-- A name at the beginning of a line. -/
def blockName : Pattern := .seq blanks (.capture 1 name)

/-- A name and parameters at the beginning of a line. -/
def methodSpec : Pattern := sequence [blanks, .capture 1 name, blanks, literal "("]

/-! ## Reading lines -/

/-- What a block of several lines holds. -/
inductive Block
  | imports
  | constants
  | fields
  | methods
deriving DecidableEq, Repr

/-- What has been read. -/
structure Reading where
  /-- The number of lines read. -/
  count : Nat
  /-- The lines read, the last one first. -/
  before : List (List Char)
  braces : Braces
  block : Option Block
  /-- The imports, the last one first. -/
  imports : List Import
  /-- The declarations, the last one first. -/
  declarations : List Declaration
  /-- The receiver and the name of each method, the last one first. -/
  methods : List (String × String)

namespace Reading

/-- Nothing read. -/
def start : Reading := ⟨0, [], .start, none, [], [], []⟩

/-- The number of the line being read. -/
def line (reading : Reading) : Nat := reading.count + 1

def addImport (reading : Reading) (captures : Captures) : Reading :=
  let found := {
    Import.new (String.ofList (part captures 2)) .importStatement reading.line with
    localName := (part? captures 1).map String.ofList }
  { reading with imports := found :: reading.imports }

def declare (reading : Reading) (name : List Char) (kind : InterfaceKind) (signature : String)
    (detail : DeclarationDetail) : Reading :=
  let declaration : Declaration := {
    name := String.ofList name
    kind, signature, detail
    doc := commentAbove reading.before
    members := []
    line := reading.line }
  { reading with declarations := declaration :: reading.declarations }

/-- Add a member to the last declaration. -/
def addMember (reading : Reading) (name : List Char) : Reading :=
  match reading.declarations with
  | last :: others =>
      let members := last.members ++ [String.ofList name]
      { reading with declarations := { last with members } :: others }
  | [] => reading

/-- Read a line of a block.  `depth` is that before the line. -/
def takeInBlock (reading : Reading) (block : Block) (depth : Nat) (raw : List Char) : Reading :=
  let trimmed := trim raw
  let isComment := "//".toList.isPrefixOf trimmed
  let closes := match block with
    | .imports | .constants => [')'].isPrefixOf trimmed
    -- The braces are those after the line, so the line that closes a body adds no member.
    | .fields | .methods => reading.braces.depth = 0
  let member (pattern : Pattern) : Reading :=
    match pattern.match? raw with
    | some captures =>
        if closes || depth ≠ 1 || isComment then reading
        else reading.addMember (part captures 1)
    | none => reading
  let read := match block with
    | .imports =>
        match (Pattern.seq blanks importSpec).match? raw with
        | some captures => reading.addImport captures
        | none => reading
    | .constants =>
        match blockName.match? raw with
        | some captures =>
            if closes || isComment then reading
            else reading.declare (part captures 1) .const (String.ofList trimmed) .plain
        | none => reading
    | .fields => member blockName
    | .methods => member methodSpec
  { read with block := if closes then none else some block }

/-- Read a function or method. -/
def takeFunction (reading : Reading) (raw : List Char) (captures : Captures) : Reading :=
  let name := part captures 2
  match part? captures 1 with
  | some receiver =>
      let method := (String.ofList receiver, String.ofList name)
      { reading with methods := method :: reading.methods }
  | none => reading.declare name .function (lineHeader raw) (.functionAsync false)

/-- Read a type.  Its members follow if its line leaves a brace open. -/
def takeType (reading : Reading) (raw : List Char) (captures : Captures) : Reading :=
  let declared (kind : InterfaceKind) (block : Block) : Reading :=
    { reading.declare (part captures 1) kind (lineHeader raw) .plain with
      block := if reading.braces.depth = 0 then none else some block }
  match part? captures 3 with
  | some word =>
      if word = "struct".toList then declared .struct .fields else declared .interface .methods
  | none => reading.declare (part captures 1) .typeAlias (lineHeader raw) .plain

/-- Read a line outside of all blocks and braces. -/
def takeOutside (reading : Reading) (raw : List Char) : Reading :=
  let trimmed := trim raw
  if trimmed = "import (".toList then { reading with block := some .imports }
  else match importLine.match? raw with
    | some captures => reading.addImport captures
    | none =>
        if trimmed = "const (".toList then { reading with block := some .constants }
        else match constantLine.match? raw with
          | some captures =>
              reading.declare (part captures 1) .const (String.ofList trimmed) .plain
          | none =>
              match functionLine.match? raw with
              | some captures => reading.takeFunction raw captures
              | none =>
                  match typeLine.match? raw with
                  | some captures => reading.takeType raw captures
                  | none => reading

/-- Read a line. -/
def take (reading : Reading) (raw : List Char) : Reading :=
  let depth := reading.braces.depth
  let current := { reading with braces := reading.braces.advance raw }
  let read := match current.block with
    | some block => current.takeInBlock block depth raw
    | none => if depth = 0 then current.takeOutside raw else current
  { read with count := reading.count + 1, before := raw :: reading.before }

end Reading

/-- Give the methods to the structs that they name; of structs with one name, the first gets
them. -/
def attach (methods : List (String × String)) : List Declaration → List Declaration
  | [] => []
  | declaration :: rest =>
      if declaration.kind = .struct then
        let (own, others) := methods.partition fun method => method.1 = declaration.name
        { declaration with members := declaration.members ++ own.map (·.2) } ::
          attach others rest
      else declaration :: attach methods rest

/-- The outline of a Go file. -/
def outline (text : String) : CodeAtlas.Outline :=
  let characters := text.toList
  let reading := (lines characters).foldl Reading.take .start
  .ofParts characters (leadingComment characters) reading.imports.reverse
    (attach reading.methods.reverse reading.declarations.reverse)

end CodeAtlas.Source.Go
