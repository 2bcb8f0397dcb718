import CodeAtlas.Text.Character
import CodeAtlas.Text.Digits

/-!
# Instants

Points of time with nanoseconds and their texts.  Instants are written in universal time with
a fraction of none, three, six or nine digits.  Texts are read more freely: with any offset,
with blanks around the parts, and with any number of digits of a fraction.
-/

namespace CodeAtlas

/-- Seconds since 1970 and nanoseconds.  A leap second is the 60th second of a minute, counted
as nanoseconds beyond a thousand million. -/
structure Instant where
  seconds : Int
  nanos : Nat
deriving DecidableEq, Repr

namespace Instant

instance : Inhabited Instant := ⟨⟨0, 0⟩⟩

/-- A day of the Gregorian calendar. -/
structure Day where
  year : Int
  month : Nat
  day : Nat
deriving DecidableEq, Repr

namespace Day

def isLeap (year : Int) : Bool :=
  year % 4 == 0 && (year % 100 != 0 || year % 400 == 0)

def monthLength (year : Int) (month : Nat) : Nat :=
  if month = 2 then (if isLeap year then 29 else 28)
  else if month = 4 ∨ month = 6 ∨ month = 9 ∨ month = 11 then 30
  else 31

/-- Days since 1 March of the year 0 up to 1 March of the given year; years begin in March. -/
def daysBeforeYear (year : Int) : Int :=
  365 * year + year / 4 - year / 100 + year / 400

/-- Days since the beginning of 1970. -/
def number (day : Day) : Int :=
  let year := if day.month ≤ 2 then day.year - 1 else day.year
  let month := (day.month + 9) % 12
  daysBeforeYear year + ((153 * month + 2) / 5 : Nat) + (day.day : Int) - 1 - 719468

/-- The day with a given number. -/
def ofNumber (number : Int) : Day :=
  let shifted := number + 719468
  let era := shifted / 146097
  let ofEra := shifted % 146097
  let yearOfEra := (ofEra - ofEra / 1460 + ofEra / 36524 - ofEra / 146096) / 365
  let ofYear := (ofEra - daysBeforeYear yearOfEra).toNat
  let month := (5 * ofYear + 2) / 153
  let day := ofYear - (153 * month + 2) / 5 + 1
  let year := yearOfEra + era * 400
  if month < 10 then ⟨year, month + 3, day⟩ else ⟨year + 1, month - 9, day⟩

end Day

/-- The year, of four digits, or with a sign outside of 0 to 9999. -/
def yearCharacters (year : Int) : List Char :=
  if 0 ≤ year ∧ year ≤ 9999 then Text.padded 4 year.toNat
  else (if year < 0 then '-' else '+') :: Text.padded 4 year.natAbs

/-- The shortest exact fraction of none, three, six or nine digits. -/
def fractionCharacters (nanos : Nat) : List Char :=
  if nanos = 0 then []
  else if nanos % 1000000 = 0 then '.' :: Text.padded 3 (nanos / 1000000)
  else if nanos % 1000 = 0 then '.' :: Text.padded 6 (nanos / 1000)
  else '.' :: Text.padded 9 nanos

/-- The text in universal time. -/
def text (instant : Instant) : String :=
  let date := Day.ofNumber (instant.seconds / 86400)
  let ofDay := (instant.seconds % 86400).toNat
  let leap := 1000000000 ≤ instant.nanos
  let second := ofDay % 60 + (if leap then 1 else 0)
  let nanos := if leap then instant.nanos - 1000000000 else instant.nanos
  String.ofList (yearCharacters date.year ++ '-' :: Text.padded 2 date.month ++
    '-' :: Text.padded 2 date.day ++ 'T' :: Text.padded 2 (ofDay / 3600) ++
    ':' :: Text.padded 2 (ofDay / 60 % 60) ++ ':' :: Text.padded 2 second ++
    fractionCharacters nanos ++ ['Z'])

/-- What follows the blanks at the head. -/
def skipBlanks (characters : List Char) : List Char :=
  characters.dropWhile Text.isBlank

/-- A year: with a sign of any length, else of at most four digits. -/
def takeYear? (characters : List Char) : Option (Int × List Char) :=
  match skipBlanks characters with
  | '-' :: rest =>
      (Text.takeNatural? rest.length rest).map fun found => (-(found.1 : Int), found.2)
  | '+' :: rest =>
      (Text.takeNatural? rest.length rest).map fun found => ((found.1 : Int), found.2)
  | rest => (Text.takeNatural? 4 rest).map fun found => ((found.1 : Int), found.2)

/-- A number of at most two digits within bounds, after blanks. -/
def takePair? (least most : Nat) (characters : List Char) : Option (Nat × List Char) := do
  let (value, rest) ← Text.takeNatural? 2 (skipBlanks characters)
  if least ≤ value ∧ value ≤ most then some (value, rest) else none

/-- What follows a separator, which blanks may precede. -/
def skipMark? (mark : Char) (characters : List Char) : Option (List Char) :=
  match skipBlanks characters with
  | c :: rest => if c = mark then some rest else none
  | [] => none

/-- The nanoseconds of a fraction, if one follows; digits after the ninth are dropped. -/
def takeFraction? (characters : List Char) : Option (Nat × List Char) :=
  match characters with
  | '.' :: rest =>
      let digits := rest.takeWhile Char.isDigit
      let kept := digits.take 9
      if digits.isEmpty then none
      else some (Text.natural kept * Nat.pow 10 (9 - kept.length), rest.drop digits.length)
  | rest => some (0, rest)

/-- Two digits, the first at most `most`, and what follows. -/
def takeTwo? (most : Nat) (characters : List Char) : Option (Nat × List Char) :=
  match characters with
  | first :: second :: rest =>
      if first.isDigit && second.isDigit && Text.digitValue first ≤ most then
        some (Text.digitValue first * 10 + Text.digitValue second, rest)
      else none
  | _ => none

/-- An offset from universal time in seconds: `Z`, `UTC`, or signed hours and minutes. -/
def takeOffset? (characters : List Char) : Option (Int × List Char) :=
  let signed (negative : Bool) (rest : List Char) : Option (Int × List Char) := do
    let (hours, rest) ← takeTwo? 9 rest
    let rest := rest.dropWhile fun c => c == ':' || Text.isBlank c
    let (minutes, rest) ← takeTwo? 5 rest
    let seconds : Int := hours * 3600 + minutes * 60
    return (if negative then -seconds else seconds, rest)
  match characters with
  | 'Z' :: rest | 'z' :: rest => some (0, rest)
  | '+' :: rest => signed false rest
  | '-' :: rest | '−' :: rest => signed true rest
  | u :: t :: c :: rest =>
      if u.toLower = 'u' ∧ t.toLower = 't' ∧ c.toLower = 'c' then some (0, rest) else none
  | _ => none

/-- The last year of the calendar on either side of the year zero. -/
def yearLimit : Int := 262142

/-- The instant that a text writes. -/
def ofText? (text : String) : Option Instant := do
  let (year, rest) ← takeYear? text.toList
  let (month, rest) ← takePair? 1 12 (← skipMark? '-' rest)
  let (day, rest) ← takePair? 1 31 (← skipMark? '-' rest)
  let rest ← match rest with
    | 'T' :: rest | 't' :: rest | ' ' :: rest => some rest
    | _ => none
  let (hour, rest) ← takePair? 0 23 rest
  let (minute, rest) ← takePair? 0 59 (← skipMark? ':' rest)
  let (second, rest) ← takePair? 0 60 (← skipMark? ':' rest)
  let (fraction, rest) ← takeFraction? rest
  let (offset, rest) ← takeOffset? (skipBlanks rest)
  if !(skipBlanks rest).isEmpty then none
  if Day.monthLength year month < day ∨ 86400 ≤ offset.natAbs then none
  if year < -yearLimit - 1 ∨ yearLimit < year then none
  let leap := second == 60
  let ofDay : Int := hour * 3600 + minute * 60 + (if leap then 59 else second)
  let seconds := Day.number ⟨year, month, day⟩ * 86400 + ofDay - offset
  let written := Day.ofNumber (seconds / 86400)
  if written.year < -yearLimit - 1 ∨ yearLimit < written.year then none
  return ⟨seconds, fraction + (if leap then 1000000000 else 0)⟩

/-- The nanoseconds from one instant to a later one, negative to an earlier one.  A leap second
counts when the two instants stand in different seconds of their days. -/
def since (later earlier : Instant) : Int :=
  let laterOfDay := later.seconds % 86400
  let earlierOfDay := earlier.seconds % 86400
  let adjustment : Int :=
    if earlierOfDay < laterOfDay then (if 1000000000 ≤ earlier.nanos then 1 else 0)
    else if laterOfDay < earlierOfDay then (if 1000000000 ≤ later.nanos then -1 else 0)
    else 0
  (later.seconds - earlier.seconds + adjustment) * 1000000000 + later.nanos - earlier.nanos

/-- The nanoseconds of a number of days. -/
def days (count : Nat) : Int := count * 86400 * 1000000000

end Instant

example : (Instant.ofText? "2024-12-31T23:30:00-01:30").map (·.text) =
    some "2025-01-01T01:00:00Z" := by decide +kernel
example : Instant.ofText? "2023-02-29T00:00:00Z" = none := by decide +kernel
example : (Instant.ofText? "0000-01-01T00:00:00.0000001z").map (·.text) =
    some "0000-01-01T00:00:00.000000100Z" := by decide +kernel

end CodeAtlas
