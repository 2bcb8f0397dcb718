import CodeAtlas.Text.Split

/-!
# Comments as documentation

The text of comments without their marks, for the languages that write `//` and `/*`.
-/

namespace CodeAtlas.Source

/-- What follows the first of some beginnings that fits. -/
def afterAny (beginnings : List (List Char)) (characters : List Char) : List Char :=
  (beginnings.findSome? fun beginning => Text.afterPrefix? beginning characters).getD characters

/-- What precedes an ending, if the text has it. -/
def beforeSuffix (ending characters : List Char) : List Char :=
  match Text.afterPrefix? ending.reverse characters.reverse with
  | some rest => rest.reverse
  | none => characters

/-- The marks that begin a comment, longer ones first. -/
def commentMarks : List (List Char) :=
  ["/**".toList, "/*!".toList, "/*".toList, "///".toList, "//!".toList, "//".toList]

/-- A line of a comment without its marks. -/
def stripCommentLine (line : List Char) : List Char :=
  let opened := afterAny commentMarks (Text.trim line)
  let closed := Text.trim (beforeSuffix ['*', '/'] opened)
  Text.trim (afterAny [['*']] closed)

/-- Lines joined by line feeds, without the blanks at the ends. -/
def joinLines (lines : List (List Char)) : List Char :=
  Text.trim (Text.joinWith ['\n'] lines)

/-- A comment without its marks. -/
def stripComment (comment : List Char) : List Char :=
  joinLines ((Text.lines comment).map stripCommentLine)

/-- The lines of the comment at the top of a file.  `inside` tells that a comment is open, and
`done` holds the lines found so far, the last one first. -/
def leadingLines (inside : Bool) (done : List (List Char)) :
    List (List Char) → List (List Char)
  | [] => done.reverse
  | line :: rest =>
      if inside then
        leadingLines (!Text.isInfix ['*', '/'] line) (line :: done) rest
      else if line.isEmpty then
        if done.isEmpty then leadingLines false [] rest else done.reverse
      else if ['/', '/'].isPrefixOf line then leadingLines false (line :: done) rest
      else if ['/', '*'].isPrefixOf line then
        leadingLines (!Text.isInfix ['*', '/'] line) (line :: done) rest
      else done.reverse

/-- The text of the comment at the very top of a file, before any code. -/
def leadingComment (source : List Char) : List Char :=
  let lines := (Text.lines source).map Text.trim
  stripComment (Text.joinWith ['\n'] (leadingLines false [] lines))

end CodeAtlas.Source
