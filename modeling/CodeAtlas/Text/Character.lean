import CodeAtlas.Text.Table.Alphabetic
import CodeAtlas.Text.Table.Numeric
import CodeAtlas.Text.Table.Lowercase
import CodeAtlas.Text.Table.Uppercase
import CodeAtlas.Text.Table.Word

/-!
# Character classes

The Unicode classes that the readers of source text and the search use.  Each answers for
ASCII directly and looks all other characters up in the table of its property.
-/

namespace CodeAtlas.Text

/-- White space: the twenty-five characters with the Unicode property `White_Space`. -/
def isBlank (c : Char) : Bool :=
  let code := c.toNat
  (9 ≤ code && code ≤ 13) || code == 0x20 || code == 0x85 || code == 0xA0 || code == 0x1680 ||
    (0x2000 ≤ code && code ≤ 0x200A) || code == 0x2028 || code == 0x2029 || code == 0x202F ||
    code == 0x205F || code == 0x3000

/-- Letters and letter-like signs. -/
def isAlphabetic (c : Char) : Bool :=
  if c.toNat < 128 then c.isAlpha else inRuns Table.alphabetic c.toNat

/-- Digits and numerals of every script. -/
def isNumeric (c : Char) : Bool :=
  if c.toNat < 128 then c.isDigit else inRuns Table.numeric c.toNat

/-- Characters that search tokens are made of. -/
def isAlphanumeric (c : Char) : Bool :=
  isAlphabetic c || isNumeric c

/-- Lowercase letters of every script. -/
def isLower (c : Char) : Bool :=
  if c.toNat < 128 then c.isLower else inRuns Table.lowercase c.toNat

/-- Uppercase letters of every script. -/
def isUpper (c : Char) : Bool :=
  if c.toNat < 128 then c.isUpper else inRuns Table.uppercase c.toNat

/-- Characters of words, as patterns over source lines understand them. -/
def isWord (c : Char) : Bool :=
  if c.toNat < 128 then c.isAlphanum || c == '_' else inRuns Table.word c.toNat

/-- Names of identifiers written in ASCII. -/
def isAsciiWord (c : Char) : Bool :=
  c.isAlphanum || c == '_'

end CodeAtlas.Text
