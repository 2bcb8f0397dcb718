import CodeAtlas.Keyed
import CodeAtlas.Text.Case
import CodeAtlas.Text.Split

/-!
# Search tokens

The lowercase words that a text is searched by.  Words end at every character that is no letter
and no digit, and inside of a name where a capital letter begins a new part.
-/

namespace CodeAtlas.Search

open CodeAtlas.Text

/-- Whether a new part of a name begins with a character, given the one before it and the text
after it.  A capital letter begins a part after a small letter or a digit, and after another
capital letter if a small one follows. -/
def beginsPart (previous current : Char) (rest : List Char) : Bool :=
  isUpper current &&
    (isLower previous || isNumeric previous || (isUpper previous && rest.head?.any isLower))

/-- The parts of a name that follow a character; `part` holds the characters of the current part
in reverse, that character first. -/
def splitAfter (previous : Char) (part : List Char) : List Char → List (List Char)
  | [] => [part.reverse]
  | c :: rest =>
      if beginsPart previous c rest then part.reverse :: splitAfter c [c] rest
      else splitAfter c (c :: part) rest

/-- The parts of a name: `parseHTTPResponse` has `parse`, `HTTP` and `Response`. -/
def nameParts : List Char → List (List Char)
  | [] => []
  | c :: rest => splitAfter c [c] rest

/-- The runs of letters and digits of a text, given the characters of the current one in
reverse. -/
def runsFrom (run : List Char) : List Char → List (List Char)
  | [] => [run.reverse]
  | c :: rest =>
      if isAlphanumeric c then runsFrom (c :: run) rest else run.reverse :: runsFrom [] rest

/-- The parts of all names in a text that have at least two characters. -/
def parts (text : List Char) : List (List Char) :=
  ((runsFrom [] text).flatMap nameParts).filter fun part => 2 ≤ part.length

/-- The tokens of a text, in ascending order and each once. -/
def tokens (text : String) : List String :=
  (Keyed.ofList ((parts text.toList).map fun part =>
    (lowercase (String.ofList part), ()))).keys

end CodeAtlas.Search
