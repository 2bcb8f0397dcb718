import CodeAtlas.Toml.Scalar
import CodeAtlas.Toml.Table

/-!
# TOML documents

Reading the text of a document into the value of its table.  The nesting of values is limited;
the limit is also what the recursion runs on.
-/

namespace CodeAtlas.Toml

/-- Characters of keys without quotation marks. -/
def isBareKey (c : Char) : Bool := c.isAlphanum || c = '_' || c = '-'

/-- One part of a key. -/
def simpleKey? (characters : List Char) : Option (String × List Char) :=
  match characters with
  | '"' :: rest => basicText? (rest.length + 1) [] rest
  | '\'' :: rest => literalText? rest
  | _ =>
      let key := characters.takeWhile isBareKey
      if key.isEmpty then none else some (String.ofList key, characters.drop key.length)

/-- The parts of a key, which points divide. -/
def key? (fuel : Nat) (characters : List Char) : Option (List String × List Char) :=
  match fuel with
  | 0 => none
  | fuel + 1 => do
      let (first, rest) ← simpleKey? (skipSpaces characters)
      match skipSpaces rest with
      | '.' :: rest =>
          let (others, rest) ← key? fuel rest
          return (first :: others, rest)
      | rest => return ([first], rest)

/-- What follows a comment, if one is there. -/
def skipComment : List Char → List Char
  | '#' :: rest => rest.dropWhile isPlain
  | characters => characters

/-- What follows the rest of a line without content. -/
def afterLine? (characters : List Char) : Option (List Char) :=
  match skipComment (skipSpaces characters) with
  | [] => some []
  | rest => afterNewline? rest

/-- What follows blanks, line ends and comments between the items of an array. -/
def skipBetween (fuel : Nat) (characters : List Char) : List Char :=
  match fuel with
  | 0 => characters
  | fuel + 1 =>
      let rest := skipComment (skipSpaces characters)
      match afterNewline? rest with
      | some rest => skipBetween fuel rest
      | none => rest

/-- The values of an array after its bracket, given how one value is read. -/
def items? (value? : List Char → Option (Json × List Char)) (fuel : Nat) (characters : List Char) :
    Option (List Json × List Char) :=
  match fuel with
  | 0 => none
  | fuel + 1 =>
      match skipBetween characters.length characters with
      | ']' :: rest => some ([], rest)
      | start => do
          let (item, rest) ← value? start
          match skipBetween rest.length rest with
          | ',' :: rest =>
              let (others, rest) ← items? value? fuel rest
              return (item :: others, rest)
          | ']' :: rest => return ([item], rest)
          | _ => none

/-- The keys and values of a table in line after its brace, given how one value is read. -/
def pairs? (value? : List Char → Option (Json × List Char)) (fuel : Nat) (characters : List Char) :
    Option (List (List String × Json) × List Char) :=
  match fuel with
  | 0 => none
  | fuel + 1 => do
      let (key, rest) ← key? (characters.length + 1) characters
      let (value, rest) ← value? (skipSpaces (← after? '=' rest))
      match skipSpaces rest with
      | ',' :: rest =>
          let (others, rest) ← pairs? value? fuel rest
          return ((key, value) :: others, rest)
      | '}' :: rest => return ([(key, value)], rest)
      | _ => none

/-- The table of keys and values, each key given once. -/
def tableOf? (pairs : List (List String × Json)) : Option Entries :=
  pairs.foldlM (fun entries pair =>
    match pair.1.reverse with
    | key :: path => entries.addValue? path.reverse key pair.2
    | [] => none) []

/-- A value nested at most `depth` deep. -/
def value? (depth : Nat) (characters : List Char) : Option (Json × List Char) :=
  match depth with
  | 0 => none
  | depth + 1 =>
      match characters with
      | '[' :: rest => do
          let (items, rest) ← items? (value? depth) (rest.length + 1) rest
          return (.array items, rest)
      | '{' :: rest =>
          match skipSpaces rest with
          | '}' :: rest => some (.object [], rest)
          | rest => do
              let (pairs, rest) ← pairs? (value? depth) (rest.length + 1) rest
              return (.object (entriesJson (← tableOf? pairs)), rest)
      | _ => scalar? characters

/-- The deepest nesting of values. -/
def depthLimit : Nat := 80

/-- A document while it is read: its table and the path of the last header. -/
structure Document where
  root : Entries
  current : List String

namespace Document

/-- Begin the table of a header, or the next table of a repeated one. -/
def header? (document : Document) (repeated : Bool) (key : List String) : Option Document :=
  match key.reverse with
  | [] => none
  | last :: path => do
      let root ← if repeated then document.root.openNextTable? path.reverse last
        else document.root.openTable? path.reverse last
      return ⟨root, key⟩

/-- Add a value to the table of the last header. -/
def add? (document : Document) (key : List String) (value : Json) : Option Document :=
  match key.reverse with
  | [] => none
  | last :: path => do
      let root ← document.root.withCurrent? document.current fun entries =>
        entries.addValue? path.reverse last value
      return { document with root }

/-- Option (one × List Char) line that begins with content, and give what follows it. -/
def line? (document : Document) (characters : List Char) : Option (Document × List Char) :=
  match characters with
  | '[' :: '[' :: rest => do
      let (key, rest) ← key? (rest.length + 1) rest
      let rest ← after? ']' (← after? ']' rest)
      return (← document.header? true key, ← afterLine? rest)
  | '[' :: rest => do
      let (key, rest) ← key? (rest.length + 1) rest
      return (← document.header? false key, ← afterLine? (← after? ']' rest))
  | _ => do
      let (key, rest) ← key? (characters.length + 1) characters
      let (value, rest) ← value? depthLimit (skipSpaces (← after? '=' rest))
      return (← document.add? key value, ← afterLine? rest)

/-- Option (line × List Char) after line; there are at most as many as characters. -/
def lines? (fuel : Nat) (document : Document) (characters : List Char) : Option Document :=
  match fuel with
  | 0 => none
  | fuel + 1 =>
      match skipSpaces characters with
      | [] => some document
      | start =>
          match afterLine? start with
          | some rest => lines? fuel document rest
          | none => do
              let (document, rest) ← document.line? start
              lines? fuel document rest

end Document

/-- Without the mark that may stand at the beginning of a text. -/
def dropMark : List Char → List Char
  | c :: rest => if c.toNat = 0xFEFF then rest else c :: rest
  | [] => []

/-- The table that a text writes. -/
def ofText? (text : String) : Option Json := do
  let characters := dropMark text.toList
  let document ← Document.lines? (characters.length + 1) ⟨[], []⟩ characters
  return .object (entriesJson document.root)

end CodeAtlas.Toml
