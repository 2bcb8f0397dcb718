import CodeAtlas.Source.CFamily
import CodeAtlas.Source.Go
import CodeAtlas.Source.Java
import CodeAtlas.Source.Indented.Outline
import CodeAtlas.Source.Crate.Outline
import CodeAtlas.Source.Script.Outline

/-!
# Readers of all languages

Go, Java and the languages of the C family are read line by line.  Sources of the other languages
are parsed to syntax trees by a library, so what reads those is given from outside.
-/

namespace CodeAtlas

/-- What reads the sources that are parsed to syntax trees: those of Python, Rust, TypeScript and
JavaScript.  Nothing is assumed of the outlines that it yields. -/
structure SyntaxReader where
  /-- The outline of a text at a path. -/
  outline : Language → String → String → Outline

namespace SyntaxReader

/-- A reader of sources without errors, which cuts them into lexemes and builds no trees. -/
def ofLexemes : SyntaxReader where
  outline language path text :=
    match language with
    | .python => Source.Indented.outline text
    | .rust => Source.Crate.outline text
    | _ => Source.Script.outline language path text

end SyntaxReader

/-- The outline of a file of a language. -/
def Outline.ofSource (reader : SyntaxReader) (language : Language) (path text : String) : Outline :=
  match language with
  | .python | .rust | .typeScript | .javaScript => reader.outline language path text
  | .go => Source.Go.outline text
  | .java => Source.Java.outline text
  | .c | .cpp => Source.CFamily.outline language text

end CodeAtlas
