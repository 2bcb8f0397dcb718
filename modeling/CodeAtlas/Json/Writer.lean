import CodeAtlas.Json.Basic

/-!
# JSON text of a value

Two layouts: everything on one line without blanks, and one item a line with an indentation of
two blanks for each level.  Both write numbers and texts alike.
-/

namespace CodeAtlas.Json

/-- A hexadecimal digit in lower case. -/
def hexDigit (value : Nat) : Char :=
  Nat.digitChar (value % 16)

/-- One character of a text, escaped where JSON asks for it. -/
def escapeCharacter (c : Char) : List Char :=
  if c = '"' then ['\\', '"']
  else if c = '\\' then ['\\', '\\']
  else if c.toNat = 8 then ['\\', 'b']
  else if c.toNat = 9 then ['\\', 't']
  else if c.toNat = 10 then ['\\', 'n']
  else if c.toNat = 12 then ['\\', 'f']
  else if c.toNat = 13 then ['\\', 'r']
  else if c.toNat < 32 then
    ['\\', 'u', '0', '0', hexDigit (c.toNat / 16), hexDigit c.toNat]
  else [c]

/-- A text between quotation marks. -/
def quoted (text : String) : List Char :=
  '"' :: (text.toList.flatMap escapeCharacter ++ ['"'])

def nullCharacters : List Char := ['n', 'u', 'l', 'l']

/-- The digits of a number; values that are no finite number are written as `null`. -/
def numberCharacters : JsonNumber → List Char
  | .integer value => Decimal.integerCharacters value
  | .double value => value.characters?.getD nullCharacters
  | .single value => value.characters?.getD nullCharacters

/-- How containers are laid out: the text before an item, before the end of a container that is
not empty, and between a name and its value. -/
structure Layout where
  beforeItem : Nat → List Char
  beforeEnd : Nat → List Char
  afterName : List Char

namespace Layout

/-- Everything on one line, without blanks. -/
def line : Layout := ⟨fun _ => [], fun _ => [], [':']⟩

/-- A new line, indented by two blanks for each level. -/
def newLine (level : Nat) : List Char :=
  '\n' :: List.replicate (2 * level) ' '

/-- One item a line. -/
def indented : Layout := ⟨fun level => newLine (level + 1), newLine, [':', ' ']⟩

end Layout

mutual

/-- The characters of a value inside `level` containers. -/
def characters (layout : Layout) (level : Nat) : Json → List Char
  | .null => nullCharacters
  | .bool true => ['t', 'r', 'u', 'e']
  | .bool false => ['f', 'a', 'l', 's', 'e']
  | .number value => numberCharacters value
  | .string text => quoted text
  | .array [] => ['[', ']']
  | .array (item :: rest) =>
      '[' :: (layout.beforeItem level ++ item.characters layout (level + 1) ++
        itemCharacters layout level rest ++ layout.beforeEnd level ++ [']'])
  | .object [] => ['{', '}']
  | .object ((name, value) :: rest) =>
      '{' :: (layout.beforeItem level ++ quoted name ++ layout.afterName ++
        value.characters layout (level + 1) ++
        memberCharacters layout level rest ++ layout.beforeEnd level ++ ['}'])
  | .unreadable => nullCharacters

/-- The items of an array after the first. -/
def itemCharacters (layout : Layout) (level : Nat) : List Json → List Char
  | [] => []
  | item :: rest =>
      ',' :: (layout.beforeItem level ++ item.characters layout (level + 1) ++
        itemCharacters layout level rest)

/-- The members of an object after the first. -/
def memberCharacters (layout : Layout) (level : Nat) : List (String × Json) → List Char
  | [] => []
  | (name, value) :: rest =>
      ',' :: (layout.beforeItem level ++ quoted name ++ layout.afterName ++
        value.characters layout (level + 1) ++ memberCharacters layout level rest)

end

/-- The text of a value on one line. -/
def compact (value : Json) : String :=
  String.ofList (value.characters .line 0)

/-- The text of a value with one item a line. -/
def pretty (value : Json) : String :=
  String.ofList (value.characters .indented 0)

end CodeAtlas.Json
