import CodeAtlas.Source.Comment

/-!
# Lines and braces

Some languages are read line by line.  The depth of braces tells what a line belongs to; braces
in texts and comments do not count.  A text ends with its line, and a block comment goes on.
-/

namespace CodeAtlas.Source

/-- How many braces are open, and whether a block comment is. -/
structure Braces where
  depth : Nat
  inComment : Bool
deriving DecidableEq, Repr

namespace Braces

/-- The beginning of a file. -/
def start : Braces := ⟨0, false⟩

/-- Read the characters of a line; `quote` is the quotation mark of the text that is open.  A
brace that closes nothing does not count. -/
def advanceFrom (braces : Braces) (quote : Option Char) : List Char → Braces
  | [] => braces
  | [c] =>
      if braces.inComment || quote.isSome then braces
      else if c = '{' then { braces with depth := braces.depth + 1 }
      else if c = '}' then { braces with depth := braces.depth - 1 }
      else braces
  | c :: next :: rest =>
      if braces.inComment then
        if c = '*' && next = '/' then advanceFrom { braces with inComment := false } quote rest
        else advanceFrom braces quote (next :: rest)
      else match quote with
        | some mark =>
            if c = '\\' then advanceFrom braces quote rest
            else advanceFrom braces (if c = mark then none else quote) (next :: rest)
        | none =>
            if c = '"' || c = '\'' || c = '`' then advanceFrom braces (some c) (next :: rest)
            else if c = '/' && next = '/' then braces
            else if c = '/' && next = '*' then
              advanceFrom { braces with inComment := true } none rest
            else if c = '{' then
              advanceFrom { braces with depth := braces.depth + 1 } none (next :: rest)
            else if c = '}' then
              advanceFrom { braces with depth := braces.depth - 1 } none (next :: rest)
            else advanceFrom braces none (next :: rest)

/-- Read a line. -/
def advance (braces : Braces) (line : List Char) : Braces := braces.advanceFrom none line

end Braces

/-- Whether a line without its outer blanks looks like one of a comment. -/
def isCommentLine (line : List Char) : Bool :=
  "//".toList.isPrefixOf line || "/*".toList.isPrefixOf line || ['*'].isPrefixOf line ||
    ['*', '/'].isSuffixOf line

/-- The text of the comment lines directly before a line; `before` holds the lines before it, the
nearest one first. -/
def commentAbove (before : List (List Char)) : String :=
  let comment := before.takeWhile fun line => isCommentLine (Text.trim line)
  String.ofList (stripComment (Text.joinWith ['\n'] (comment.map Text.trim).reverse))

/-- Whether a line is blank or a comment. -/
def isTrivia (line : List Char) : Bool :=
  let trimmed := Text.trim line
  trimmed.isEmpty || "//".toList.isPrefixOf trimmed || "/*".toList.isPrefixOf trimmed ||
    ['*'].isPrefixOf trimmed

/-- A line up to its first brace, with blanks collapsed and without semicolons at the end. -/
def lineHeader (line : List Char) : String :=
  let head := Text.collapse (line.takeWhile (· ≠ '{'))
  String.ofList (Text.trimEnd (Text.dropEndWhile (· = ';') head))

end CodeAtlas.Source
