import CodeAtlas.Source.Indented.Lexer

/-!
# Logical lines of Python

Lexemes grouped into the lines that statements stand on.  A line goes on inside brackets and
texts.  Its level says how many blocks it stands in: a block begins with the deeper line after a
line that ends in a colon, and ends with the first line that is less deep.
-/

namespace CodeAtlas.Source.Indented

/-- A lexeme and the number of brackets and texts around it. -/
structure Token extends Lexeme Kind where
  depth : Nat

namespace Token

/-- Comments and line continuations may stand between any two tokens. -/
def isExtra (token : Token) : Bool := token.kind == .comment || token.kind == .continuation

/-- Whether the token is a mark or name outside of all brackets of its line. -/
def isOuter (token : Token) (text : String) : Bool :=
  token.depth == 0 && (token.kind == .mark || token.kind == .name) && token.text == text.toList

def isName (token : Token) (text : String) : Bool :=
  token.kind == .name && token.text == text.toList

def isMark (token : Token) (text : String) : Bool :=
  token.kind == .mark && token.text == text.toList

end Token

/-- A logical line: its tokens, extra ones included, and the blocks around it. -/
structure Line where
  level : Nat
  tokens : List Token

namespace Line

/-- The tokens that are no comments and continuations. -/
def content (line : Line) : List Token := line.tokens.filter (!·.isExtra)

end Line

/-- The width of an indentation: a tabulator counts eight, and a carriage return or form feed
begins anew. -/
def indentation (blanks : List Char) : Nat :=
  blanks.foldl (fun width c =>
    if c = ' ' then width + 1
    else if c = '\t' then width + 8
    else if c = '\r' ∨ c.toNat = 12 then 0
    else width) 0

/-- The lines read so far and the one being read. -/
structure LineBuilder where
  /-- Finished lines, the last one first. -/
  done : List Line
  /-- Tokens of the current line, the last one first. -/
  tokens : List Token
  depth : Nat
  /-- The indentation of the current line, or none for the first line of the file. -/
  indent : Option Nat
  /-- The indentations of the open blocks, innermost first. -/
  blocks : List Nat
  /-- Whether the last finished line opens a block. -/
  opened : Bool

namespace LineBuilder

/-- Nothing read. -/
def start : LineBuilder := ⟨[], [], 0, none, [], false⟩

/-- The open blocks when a line of some indentation begins. -/
def blocksAt (builder : LineBuilder) : List Nat :=
  match builder.indent with
  | none => builder.blocks
  | some width =>
      if builder.opened && builder.blocks.headD 0 < width then width :: builder.blocks
      else builder.blocks.dropWhile fun block => width < block

/-- Finish the current line if it has content. -/
def finish (builder : LineBuilder) : LineBuilder :=
  let content := builder.tokens.filter (!·.isExtra)
  match content with
  | [] =>
      let kept := builder.tokens.filter (·.kind == .continuation)
      { builder with tokens := kept, indent := some 0 }
  | last :: _ =>
      let blocks := builder.blocksAt
      { builder with
        done := ⟨blocks.length, builder.tokens.reverse⟩ :: builder.done
        tokens := []
        indent := some 0
        blocks
        opened := last.isOuter ":" }

/-- Take one lexeme. -/
def take (builder : LineBuilder) (lexeme : Lexeme Kind) : LineBuilder :=
  let token : Token := { lexeme with depth := builder.depth }
  match lexeme.kind with
  | .newline => if builder.depth = 0 then builder.finish else builder
  | .blank =>
      if builder.depth = 0 && builder.tokens.isEmpty then
        { builder with indent := builder.indent.map fun _ => indentation lexeme.text }
      else builder
  | .openBracket | .textOpen =>
      { builder with tokens := token :: builder.tokens, depth := builder.depth + 1 }
  | .closeBracket | .textClose =>
      let depth := builder.depth - 1
      { builder with tokens := { token with depth } :: builder.tokens, depth }
  | _ => { builder with tokens := token :: builder.tokens }

end LineBuilder

/-- The logical lines of a source. -/
def lines (source : List Char) : List Line :=
  ((lexemes source).foldl LineBuilder.take .start).finish.done.reverse

end CodeAtlas.Source.Indented
