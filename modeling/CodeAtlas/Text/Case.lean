import CodeAtlas.Text.Character
import CodeAtlas.Text.Table.Cased
import CodeAtlas.Text.Table.CaseIgnorable
import CodeAtlas.Text.Table.Lowering

/-!
# Lowercase text

The full lowercase mapping of the Unicode standard: one character for most, two for the
capital I with a dot, and the final form of a capital sigma at the end of a word.
-/

namespace CodeAtlas.Text

/-- The lowercase form of one character, taken by itself. -/
def lowerChar (c : Char) : List Char :=
  if c.toNat < 128 then [c.toLower]
  else if c.toNat == 0x130 then ['i', Char.ofNat 0x307]
  else
    match Table.lowering.find? (·.run.contains c.toNat) with
    | some entry => [Char.ofNat (entry.target + (c.toNat - entry.run.first))]
    | none => [c]

private def isCased (c : Char) : Bool :=
  inRuns Table.cased c.toNat

private def isCaseIgnorable (c : Char) : Bool :=
  inRuns Table.caseIgnorable c.toNat

/-- Whether the first character that case does not ignore has case. -/
def meetsCased (characters : List Char) : Bool :=
  match characters.dropWhile isCaseIgnorable with
  | c :: _ => isCased c
  | [] => false

/-- Lowercase the text `rest` that stands after `before` (last character first). -/
def lowerAfter (before : List Char) : List Char → List Char
  | [] => []
  | c :: rest =>
      (if c == 'Σ' then
        [if meetsCased before && !meetsCased rest then 'ς' else 'σ']
       else lowerChar c) ++ lowerAfter (c :: before) rest

/-- The lowercase form of a text. -/
def lowercase (text : String) : String :=
  String.ofList (lowerAfter [] text.toList)

/-- Lowercase of ASCII letters alone; all other characters stay. -/
def lowercaseAscii (text : String) : String :=
  text.map Char.toLower

end CodeAtlas.Text
