import CodeAtlas.Json.Basic
import CodeAtlas.Text.Split
import CodeAtlas.Text.Digits
import CodeAtlas.Instant

/-!
# Scalars of TOML

Texts, numbers, truth values and dates as TOML writes them.  Each reader takes the characters at
the head of a text and gives what follows; none means that the text is not well formed.
-/

namespace CodeAtlas.Toml

/-- Blanks inside a line. -/
def isSpace (c : Char) : Bool := c = ' ' || c = '\t'

def skipSpaces (characters : List Char) : List Char := characters.dropWhile isSpace

/-- Characters that comments and texts may hold: tabulators and all that is no control
character. -/
def isPlain (c : Char) : Bool :=
  c = '\t' || (32 ≤ c.toNat && c.toNat ≠ 127)

/-- What follows a line end. -/
def afterNewline? : List Char → Option (List Char)
  | '\n' :: rest => some rest
  | '\r' :: '\n' :: rest => some rest
  | _ => none

/-- The character of hexadecimal digits, if they stand for one. -/
def hexCharacter? (digits : List Char) : Option Char := do
  let code ← digits.foldlM (fun total c =>
    if c.isDigit then some (total * 16 + (c.toNat - '0'.toNat))
    else if 'a' ≤ c ∧ c ≤ 'f' then some (total * 16 + (c.toNat - 'a'.toNat + 10))
    else if 'A' ≤ c ∧ c ≤ 'F' then some (total * 16 + (c.toNat - 'A'.toNat + 10))
    else none) 0
  if code < 0xD800 ∨ (0xDFFF < code ∧ code < 0x110000) then some (Char.ofNat code) else none

/-- The character that follows a backslash, by its letter. -/
def escape? : List Char → Option (Char × List Char)
  | 'b' :: rest => some (Char.ofNat 8, rest)
  | 't' :: rest => some ('\t', rest)
  | 'n' :: rest => some ('\n', rest)
  | 'f' :: rest => some (Char.ofNat 12, rest)
  | 'r' :: rest => some ('\r', rest)
  | '"' :: rest => some ('"', rest)
  | '\\' :: rest => some ('\\', rest)
  | 'u' :: rest =>
      if rest.length < 4 then none
      else (hexCharacter? (rest.take 4)).map fun c => (c, rest.drop 4)
  | 'U' :: rest =>
      if rest.length < 8 then none
      else (hexCharacter? (rest.take 8)).map fun c => (c, rest.drop 8)
  | _ => none

/-- The rest of a text in quotation marks on one line. -/
def basicText? (fuel : Nat) (done characters : List Char) : Option (String × List Char) :=
  match fuel, characters with
  | _ + 1, '"' :: rest => some (String.ofList done.reverse, rest)
  | fuel + 1, '\\' :: rest => do
      let (c, rest) ← escape? rest
      basicText? fuel (c :: done) rest
  | fuel + 1, c :: rest => if isPlain c then basicText? fuel (c :: done) rest else none
  | _, _ => none

/-- The rest of a text between apostrophes on one line. -/
def literalText? (characters : List Char) : Option (String × List Char) :=
  match characters.dropWhile fun c => isPlain c && c != '\'' with
  | '\'' :: rest =>
      some (String.ofList (characters.takeWhile fun c => isPlain c && c != '\''), rest)
  | _ => none

/-- What follows the blanks and line ends after a backslash at the end of a line. -/
def skipLineEnds (fuel : Nat) (characters : List Char) : List Char :=
  match fuel with
  | 0 => characters
  | fuel + 1 =>
      match characters with
      | ' ' :: rest | '\t' :: rest | '\n' :: rest | '\r' :: '\n' :: rest =>
          skipLineEnds fuel rest
      | _ => characters

/-- The end of a text over several lines: three marks, and up to two more that belong to the
text. -/
def closing? (mark : Char) (characters : List Char) : Option (List Char × List Char) :=
  let marks := characters.takeWhile (· == mark)
  let count := min marks.length 5
  if count < 3 then none else some (List.replicate (count - 3) mark, characters.drop count)

/-- The rest of a text over several lines.  Line ends become line feeds; where escapes are
known, a backslash at the end of a line drops the blanks and line ends that follow. -/
def longText? (mark : Char) (escapes : Bool) (fuel : Nat) (done characters : List Char) :
    Option (String × List Char) :=
  match fuel, characters with
  | 0, _ | _, [] => none
  | fuel + 1, c :: rest =>
      if c = mark then
        match closing? mark (c :: rest) with
        | some (extra, rest) => some (String.ofList (extra ++ done).reverse, rest)
        | none => longText? mark escapes fuel (c :: done) rest
      else match afterNewline? (c :: rest) with
        | some rest => longText? mark escapes fuel ('\n' :: done) rest
        | none =>
            if c = '\\' && escapes then
              match afterNewline? (skipSpaces rest) with
              | some rest => longText? mark escapes fuel done (skipLineEnds rest.length rest)
              | none => do
                  let (c, rest) ← escape? rest
                  longText? mark escapes fuel (c :: done) rest
            else if isPlain c then longText? mark escapes fuel (c :: done) rest
            else none

/-- Without a line end at the beginning. -/
def dropFirstNewline (characters : List Char) : List Char :=
  (afterNewline? characters).getD characters

/-- A text in any of the four forms. -/
def text? : List Char → Option (String × List Char)
  | '"' :: '"' :: '"' :: rest => longText? '"' true (rest.length + 1) [] (dropFirstNewline rest)
  | '\'' :: '\'' :: '\'' :: rest =>
      longText? '\'' false (rest.length + 1) [] (dropFirstNewline rest)
  | '"' :: rest => basicText? (rest.length + 1) [] rest
  | '\'' :: rest => literalText? rest
  | _ => none

/-- A run of digits that single underscores may divide.  The digits are given in their order. -/
def digits? (isDigit : Char → Bool) (characters : List Char) : Option (List Char × List Char) :=
  go [] characters
where
  /-- The digits found so far are in reverse. -/
  go (done : List Char) : List Char → Option (List Char × List Char)
    | '_' :: c :: rest =>
        if !done.isEmpty && isDigit c then go (c :: done) rest
        else if done.isEmpty then none else some (done.reverse, '_' :: c :: rest)
    | c :: rest =>
        if isDigit c then go (c :: done) rest
        else if done.isEmpty then none else some (done.reverse, c :: rest)
    | [] => if done.isEmpty then none else some (done.reverse, [])

/-- The value of digits of a base. -/
def inBase (base : Nat) (digits : List Char) : Nat :=
  digits.foldl (fun total c =>
    total * base +
      (if c.isDigit then c.toNat - '0'.toNat else c.toLower.toNat - 'a'.toNat + 10)) 0

/-- A whole number within 64 bits with a sign. -/
def bounded? (value : Int) : Option Json :=
  if -(Nat.pow 2 63 : Int) ≤ value ∧ value < Nat.pow 2 63 then some (.ofInt value) else none

/-- An optional sign: whether it is a minus, and what follows. -/
def sign : List Char → Bool × List Char
  | '-' :: rest => (true, rest)
  | '+' :: rest => (false, rest)
  | characters => (false, characters)

/-- The digits of a decimal number, which has no zero before other digits. -/
def wholeDigits? (characters : List Char) : Option (List Char × List Char) :=
  match characters with
  | '0' :: rest => some (['0'], rest)
  | _ => digits? Char.isDigit characters

/-- The exponent after its letter. -/
def exponent? (characters : List Char) : Option (Int × List Char) := do
  let (negative, rest) := sign characters
  let (digits, rest) ← digits? Char.isDigit rest
  let value : Int := Text.natural digits
  return (if negative then -value else value, rest)

/-- The value of a number with a fraction or an exponent.  No number may be above all finite
ones. -/
def real? (negative : Bool) (whole fraction : List Char) (exponent : Int) : Option Json :=
  let value := Ieee.ofDecimal .double negative (Text.natural (whole ++ fraction))
    (exponent - fraction.length)
  if value = .infinite false then none else some (.number (.double value))

/-- A number in decimal digits: whole unless a fraction or an exponent follows. -/
def decimalNumber? (characters : List Char) : Option (Json × List Char) := do
  let (negative, rest) := sign characters
  let (whole, rest) ← wholeDigits? rest
  match rest with
  | '.' :: rest =>
      let (fraction, rest) ← digits? Char.isDigit rest
      match rest with
      | 'e' :: rest | 'E' :: rest =>
          let (exponent, rest) ← exponent? rest
          return (← real? negative whole fraction exponent, rest)
      | _ => return (← real? negative whole fraction 0, rest)
  | 'e' :: rest | 'E' :: rest =>
      let (exponent, rest) ← exponent? rest
      return (← real? negative whole [] exponent, rest)
  | _ =>
      let value : Int := Text.natural whole
      return (← bounded? (if negative then -value else value), rest)

def isHexDigit (c : Char) : Bool :=
  c.isDigit || ('a' ≤ c && c ≤ 'f') || ('A' ≤ c && c ≤ 'F')

/-- A number: in decimal digits, in another base, infinite, or none at all. -/
def number? (characters : List Char) : Option (Json × List Char) :=
  let based (base : Nat) (isDigit : Char → Bool) (rest : List Char) :
      Option (Json × List Char) := do
    let (digits, rest) ← digits? isDigit rest
    return (← bounded? (inBase base digits), rest)
  match characters with
  | '0' :: 'x' :: rest => based 16 isHexDigit rest
  | '0' :: 'o' :: rest => based 8 (fun c => '0' ≤ c && c ≤ '7') rest
  | '0' :: 'b' :: rest => based 2 (fun c => c = '0' || c = '1') rest
  | _ =>
      let (negative, unsigned) := sign characters
      match unsigned with
      | 'i' :: 'n' :: 'f' :: rest => some (.number (.double (.infinite negative)), rest)
      | 'n' :: 'a' :: 'n' :: rest => some (.number (.double (.notANumber negative)), rest)
      | _ => decimalNumber? characters

/-- A number of exactly so many digits within bounds. -/
def fixed? (width least most : Nat) (characters : List Char) : Option (Nat × List Char) :=
  let digits := characters.take width
  let value := Text.natural digits
  if digits.length = width ∧ digits.all Char.isDigit ∧ least ≤ value ∧ value ≤ most then
    some (value, characters.drop width)
  else none

/-- What follows a given character. -/
def after? (mark : Char) : List Char → Option (List Char)
  | c :: rest => if c = mark then some rest else none
  | [] => none

/-- What follows a time of day. -/
def afterTime? (characters : List Char) : Option (List Char) := do
  let (_, rest) ← fixed? 2 0 23 characters
  let (_, rest) ← fixed? 2 0 59 (← after? ':' rest)
  let (_, rest) ← fixed? 2 0 60 (← after? ':' rest)
  match rest with
  | '.' :: rest =>
      let digits := rest.takeWhile Char.isDigit
      if digits.isEmpty then none else some (rest.drop digits.length)
  | _ => some rest

/-- What follows an offset from universal time, if one is there. -/
def afterOffset? : List Char → Option (List Char)
  | 'Z' :: rest | 'z' :: rest => some rest
  | '+' :: rest | '-' :: rest => do
      let (_, rest) ← fixed? 2 0 23 rest
      let (_, rest) ← fixed? 2 0 59 (← after? ':' rest)
      some rest
  | rest => some rest

/-- What follows a date and, if one is there, the time of day after it. -/
def afterDate? (characters : List Char) : Option (List Char) := do
  let (year, rest) ← fixed? 4 0 9999 characters
  let (month, rest) ← fixed? 2 1 12 (← after? '-' rest)
  let (day, rest) ← fixed? 2 1 31 (← after? '-' rest)
  if Instant.Day.monthLength year month < day then none
  match rest with
  | 'T' :: time | 't' :: time => afterTime? time >>= afterOffset?
  | ' ' :: c :: time =>
      if c.isDigit then afterTime? (c :: time) >>= afterOffset? else some rest
  | _ => some rest

/-- Whether a date or a time of day begins here: digits and then its mark. -/
def beginsMoment (characters : List Char) : Bool :=
  let digits := characters.takeWhile Char.isDigit
  match characters.drop digits.length with
  | '-' :: _ => digits.length == 4
  | ':' :: _ => digits.length == 2
  | _ => false

/-- The member under which a date or time of day is kept. -/
def momentKey : String := "$__toml_private_datetime"

/-- A date, a time of day, or both, kept as its text. -/
def moment? (characters : List Char) : Option (Json × List Char) := do
  let rest ← if (characters.takeWhile Char.isDigit).length = 4 then afterDate? characters
    else afterTime? characters
  let text := String.ofList (characters.take (characters.length - rest.length))
  return (.object [(momentKey, .string text)], rest)

/-- A value that holds no other values. -/
def scalar? (characters : List Char) : Option (Json × List Char) :=
  match characters with
  | '"' :: _ | '\'' :: _ => (text? characters).map fun read => (.string read.1, read.2)
  | 't' :: 'r' :: 'u' :: 'e' :: rest => some (.bool true, rest)
  | 'f' :: 'a' :: 'l' :: 's' :: 'e' :: rest => some (.bool false, rest)
  | _ => if beginsMoment characters then moment? characters else number? characters

end CodeAtlas.Toml
