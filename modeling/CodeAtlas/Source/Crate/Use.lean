import CodeAtlas.Source.Outline
import CodeAtlas.Source.Crate.Lexer

/-!
# Trees of uses

A use declaration names a tree of paths: `use a::{b, c::{d, e as f}, g::*};`.  The tree is read
into its leaves, and the leaves with the same path before their last name become one import.
-/

namespace CodeAtlas.Source.Crate

/-- One imported path: what precedes its last name, the last name, and the name it gets. -/
structure UseLeaf where
  parent : List Char
  name : List Char
  localName : Option String
deriving Repr

namespace UseLeaf

/-- A path after the path of the list it stands in. -/
def joinPath (before path : List Char) : List Char :=
  if before.isEmpty then path
  else if path.isEmpty then before
  else before ++ "::".toList ++ path

/-- The leaf of a whole path. -/
def ofPath (path : List Char) (localName : Option String) : UseLeaf :=
  match Text.splitAt? "::".toList path.reverse with
  | some (name, parent) => ⟨parent.reverse, name.reverse, localName⟩
  | none => ⟨[], path, localName⟩

end UseLeaf

/-- A text without its blanks. -/
def compact (text : List Char) : List Char := text.filter (!Text.isBlank ·)

/-- A use tree being read. -/
structure UseReader where
  /-- The paths of the lists around, innermost first. -/
  paths : List (List Char)
  /-- The tokens of the current path, the last one first. -/
  current : List Token
  /-- The comments after them, the last one first. -/
  comments : List Token
  /-- The leaves found so far, the last one first. -/
  leaves : List UseLeaf

namespace UseReader

/-- Nothing read. -/
def start : UseReader := ⟨[], [], [], []⟩

/-- The path of the list around. -/
def path (reader : UseReader) : List Char := reader.paths.headD []

/-- The leaf of a path without a list. -/
def leaf (source : Array Char) (before : List Char) (tokens : List Token) : UseLeaf :=
  let text (tokens : List Token) : List Char := compact (Nested.spanText source tokens)
  let isAs (token : Token) : Bool := token.isName "as"
  if tokens.any isAs then
    let named := (tokens.takeWhile (!isAs ·)).reverse.dropWhile (·.isComment)
    let localName := ((tokens.dropWhile (!isAs ·)).drop 1).filter (!·.isComment)
    .ofPath (UseLeaf.joinPath before (text named.reverse)) (localName.head?.map (·.string))
  else if tokens.getLast?.any (·.isMark '*') then
    let stars := Text.dropEndWhile (· = '*') (text tokens)
    let base := (Text.dropEndWhile (· = ':') stars)
    ⟨UseLeaf.joinPath before base, ['*'], none⟩
  else .ofPath (UseLeaf.joinPath before (text tokens)) none

/-- Comments in a list count as paths. -/
def commentLeaf (reader : UseReader) (comment : Token) : UseLeaf :=
  .ofPath (UseLeaf.joinPath reader.path (compact comment.text)) none

/-- Take the leaves of the current path and the comments after it. -/
def finish (source : Array Char) (reader : UseReader) : UseReader :=
  let own := if reader.current.isEmpty then []
    else [leaf source reader.path reader.current.reverse]
  { reader with
    current := []
    comments := []
    leaves := reader.comments.map reader.commentLeaf ++ own ++ reader.leaves }

/-- Take one token. -/
def take (source : Array Char) (reader : UseReader) (token : Token) : UseReader :=
  if token.isMark '{' then
    let named := (reader.current.drop 1).dropWhile (·.isComment)
    let path := UseLeaf.joinPath reader.path (compact (Nested.spanText source named.reverse))
    { reader with paths := path :: reader.paths, current := [], comments := [] }
  else if token.isMark '}' then
    { reader.finish source with paths := reader.paths.drop 1 }
  else if token.isMark ',' then reader.finish source
  else if token.isComment then
    if reader.current.isEmpty then
      if reader.paths.isEmpty then reader
      else { reader with leaves := reader.commentLeaf token :: reader.leaves }
    else { reader with comments := token :: reader.comments }
  else
    { reader with current := token :: (reader.comments ++ reader.current), comments := [] }

end UseReader

/-- The leaves of a use tree. -/
def useLeaves (source : Array Char) (tree : List Token) : List UseLeaf :=
  let reader := tree.foldl (UseReader.take source) .start
  let finished := { reader with comments := [] }.finish source
  finished.leaves.reverse

/-- Add a name to the first import of a module that has no alias, if there is one. -/
def addName? (module name : String) : List Import → Option (List Import)
  | [] => none
  | found :: rest =>
      if found.module = module && found.localName.isNone then
        some ({ found with names := found.names ++ [name] } :: rest)
      else (addName? module name rest).map (found :: ·)

/-- Add a leaf to the imports of its declaration. -/
def addLeaf (line : Nat) (imports : List Import) (leaf : UseLeaf) : List Import :=
  let name := String.ofList leaf.name
  if leaf.parent.isEmpty then
    imports ++ [{ Import.new name .useDeclaration line with localName := leaf.localName }]
  else
    let parent := String.ofList leaf.parent
    let separate := imports ++
      [{ Import.new parent .useDeclaration line with names := [name], localName := leaf.localName }]
    match leaf.localName with
    | some _ => separate
    | none => (addName? parent name imports).getD separate

/-- The imports of a use tree. -/
def useImports (source : Array Char) (line : Nat) (tree : List Token) : List Import :=
  (useLeaves source tree).foldl (addLeaf line) []

end CodeAtlas.Source.Crate
