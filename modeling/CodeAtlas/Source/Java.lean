import CodeAtlas.Source.Braces
import CodeAtlas.Source.Outline
import CodeAtlas.Text.Pattern

/-!
# Outlines of Java files

Java is read line by line: imports and types outside of all braces, and methods directly inside
the braces of the last type.
-/

namespace CodeAtlas.Source.Java

open CodeAtlas.Text CodeAtlas.Text.Pattern

/-! ## Patterns of lines -/

/-- An import, with a star if it is of all that a package holds. -/
def importLine : Pattern := sequence [
  blanks, literal "import", gap, optional (.seq (literal "static") gap),
  .capture 2 (.seq (.one fun c => isWord c || c = '.') (.run false fun c => isWord c || c = '.')),
  optional (.capture 3 (literal ".*")), blanks, literal ";"]

/-- Words that may stand before the word for a type. -/
def modifierWords : List String :=
  ["public", "protected", "private", "abstract", "final", "static", "sealed", "non-sealed",
    "strictfp"]

/-- An annotation, with arguments if wanted. -/
def annotation : Pattern := sequence [
  literal "@", name, optional (sequence [literal "(", without [')'], literal ")"]), gap]

/-- The line that begins a type. -/
def typeLine : Pattern := sequence [
  blanks, .many true annotation, .many true (.seq (word modifierWords) gap),
  .capture 1 (word ["class", "interface", "enum", "record", "@interface"]), gap,
  .capture 2 name]

/-- Characters of types and modifiers. -/
def isTypePart (c : Char) : Bool :=
  isWord c || c = '<' || c = '>' || c = '[' || c = ']' || c = ',' || c = '.' || c = '?'

/-- A word of a type, and the blanks after it. -/
def typeWord : Pattern := .seq (several isTypePart) gap

/-- The line that begins a method: words of types and modifiers, and a name with parameters. -/
def methodLine : Pattern := sequence [
  blanks, .many true (sequence [literal "@", name, gap]), typeWord, .many false typeWord,
  .capture 1 name, blanks, literal "("]

/-- Words that are no names of methods although parentheses follow them. -/
def statementWords : List (List Char) :=
  ["if", "for", "while", "switch", "catch", "return", "new", "else", "throw"].map String.toList

/-! ## Reading lines -/

/-- The types that a line names after a word. -/
def basesAfter (keyword : String) (header : List Char) : List String :=
  match splitAt? (" " ++ keyword ++ " ").toList header with
  | some (_, rest) =>
      let listed := ((splitAt? " implements ".toList rest).map (·.1)).getD rest
      let bases := (splitOn ',' listed).map fun base => (trim base).takeWhile (· ≠ '<')
      (bases.filter (!·.isEmpty)).map String.ofList
  | none => []

/-- The types that a class extends and implements. -/
def bases (raw : List Char) : List String :=
  let header := raw.takeWhile (· ≠ '{')
  basesAfter "extends" header ++ basesAfter "implements" header

/-- What has been read. -/
structure Reading where
  /-- The number of lines read. -/
  count : Nat
  /-- The lines read, the last one first. -/
  before : List (List Char)
  braces : Braces
  /-- The imports, the last one first. -/
  imports : List Import
  /-- The declarations, the last one first. -/
  declarations : List Declaration

namespace Reading

/-- Nothing read. -/
def start : Reading := ⟨0, [], .start, [], []⟩

def addImport (reading : Reading) (captures : Captures) : Reading :=
  let path := part captures 2
  let last := ((splitLast? '.' path).map (·.2)).getD path
  let names := if (part? captures 3).isSome then ["*"] else [String.ofList last]
  let found := { Import.new (String.ofList path) .importStatement (reading.count + 1) with names }
  { reading with imports := found :: reading.imports }

def addType (reading : Reading) (raw : List Char) (captures : Captures) : Reading :=
  let word := part captures 1
  let (kind, detail) : InterfaceKind × DeclarationDetail :=
    if word = "interface".toList || word = "@interface".toList then (.interface, .plain)
    else if word = "enum".toList then (.enum, .plain)
    else (.class, .classBases (bases raw))
  let declaration : Declaration := {
    name := String.ofList (part captures 2)
    kind, detail
    signature := lineHeader raw
    doc := commentAbove reading.before
    members := []
    line := reading.count + 1 }
  { reading with declarations := declaration :: reading.declarations }

/-- Add a method to the last type. -/
def addMethod (reading : Reading) (raw : List Char) (captures : Captures) : Reading :=
  let name := part captures 1
  match reading.declarations with
  | last :: others =>
      if statementWords.contains name || "//".toList.isPrefixOf (trimStart raw) then reading
      else
        let members := last.members ++ [String.ofList name]
        { reading with declarations := { last with members } :: others }
  | [] => reading

/-- Read a line. -/
def take (reading : Reading) (raw : List Char) : Reading :=
  let read :=
    if reading.braces.depth = 0 then
      match importLine.match? raw with
      | some captures => reading.addImport captures
      | none =>
          match typeLine.match? raw with
          | some captures => reading.addType raw captures
          | none => reading
    else if reading.braces.depth = 1 then
      match methodLine.match? raw with
      | some captures => reading.addMethod raw captures
      | none => reading
    else reading
  { read with
    count := reading.count + 1
    before := raw :: reading.before
    braces := reading.braces.advance raw }

end Reading

/-- The outline of a Java file. -/
def outline (text : String) : CodeAtlas.Outline :=
  let characters := text.toList
  let reading := (lines characters).foldl Reading.take .start
  .ofParts characters (leadingComment characters) reading.imports.reverse
    reading.declarations.reverse

end CodeAtlas.Source.Java
