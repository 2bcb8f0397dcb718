import CodeAtlas.Json.Basic

/-!
# Number literals

The grammar of JSON numbers and their values.  A literal without point and exponent that fits
64 bits is whole.  Any other is its leading digits, as many as fit 64 bits, scaled by one power
of ten, with a rounding to double precision after each step.
-/

namespace CodeAtlas.JsonNumber

/-- The parts of a literal: the digits before and after the point, and the exponent. -/
structure Literal where
  negative : Bool
  whole : List Nat
  fraction : Option (List Nat)
  exponent : Option Int
deriving Repr

namespace Literal

def digitValue (c : Char) : Nat := c.toNat - '0'.toNat

/-- The value of a sequence of digits. -/
def natural (digits : List Nat) : Nat :=
  digits.foldl (fun total digit => total * 10 + digit) 0

/-- The exponent after its mark: an optional sign and at least one digit. -/
def exponent? (characters : List Char) : Option Int :=
  let unsigned (digits : List Char) : Option Nat :=
    if digits.isEmpty || !digits.all Char.isDigit then none
    else some (natural (digits.map digitValue))
  match characters with
  | '+' :: digits => (unsigned digits).map Int.ofNat
  | '-' :: digits => (unsigned digits).map fun value => -(value : Int)
  | digits => (unsigned digits).map Int.ofNat

/-- The parts of a literal, if it keeps the grammar: no zero before other digits, and at least
one digit before the point, after it, and in the exponent. -/
def ofCharacters? (characters : List Char) : Option Literal := do
  let (negative, rest) := match characters with
    | '-' :: rest => (true, rest)
    | rest => (false, rest)
  let whole := rest.takeWhile Char.isDigit
  let rest := rest.dropWhile Char.isDigit
  if whole.isEmpty || (whole.length > 1 && whole.head? == some '0') then none
  let (fraction, rest) ← match rest with
    | '.' :: rest =>
        let digits := rest.takeWhile Char.isDigit
        if digits.isEmpty then none
        else some (some digits, rest.dropWhile Char.isDigit)
    | rest => some (none, rest)
  let exponent ← match rest with
    | [] => some none
    | mark :: rest =>
        if mark == 'e' || mark == 'E' then (exponent? rest).map some else none
  return ⟨negative, whole.map digitValue, fraction.map (·.map digitValue), exponent⟩

/-- Digits read so far: a significand of 64 bits and the power of ten it lacks. -/
structure Scaled where
  significand : Nat
  exponent : Int
  full : Bool
deriving Repr

/-- Read a digit before the point.  Once a digit does not fit, the rest only count. -/
def Scaled.wholeDigit (read : Scaled) (digit : Nat) : Scaled :=
  let next := read.significand * 10 + digit
  if read.full || Nat.pow 2 64 ≤ next then ⟨read.significand, read.exponent + 1, true⟩
  else ⟨next, read.exponent, false⟩

/-- Read a digit after the point.  Once a digit does not fit, the rest are dropped. -/
def Scaled.fractionDigit (read : Scaled) (digit : Nat) : Scaled :=
  let next := read.significand * 10 + digit
  if read.full || Nat.pow 2 64 ≤ next then ⟨read.significand, read.exponent, true⟩
  else ⟨next, read.exponent - 1, false⟩

/-- Divide by `10 ^ 308` until the exponent is in reach of one power of ten. -/
def scaleDown : Nat → Binary64 → Int → Binary64
  | 0, value, _ => value
  | steps + 1, value, exponent =>
      if -308 ≤ exponent then value / .ofDecimal .double false 1 (-exponent)
      else if value = .zero then value
      else scaleDown steps (value / .ofDecimal .double false 1 308) (exponent + 308)

/-- The significand times a power of ten; none beyond the finite values. -/
def scale? (significand : Nat) (exponent : Int) : Option Binary64 :=
  let value : Binary64 := .ofNat .double significand
  if exponent < 0 then some (scaleDown (exponent.natAbs / 308 + 1) value exponent)
  else if significand = 0 then some .zero
  else if 308 < exponent then none
  else
    let scaled := value * .ofDecimal .double false 1 exponent
    if scaled.isFinite then some scaled else none

/-- The number a literal stands for; none beyond the finite values. -/
def value? (literal : Literal) : Option JsonNumber :=
  let natural := natural literal.whole
  let signed (value : Binary64) : JsonNumber :=
    .double (if literal.negative then -value else value)
  let isWhole := literal.fraction.isNone && literal.exponent.isNone
  if isWhole && !literal.negative && natural < Nat.pow 2 64 then some (.integer natural)
  else if isWhole && literal.negative && 0 < natural && natural ≤ Nat.pow 2 63 then
    some (.integer (-natural))
  else
    let whole := literal.whole.foldl Scaled.wholeDigit ⟨0, 0, false⟩
    let read := (literal.fraction.getD []).foldl Scaled.fractionDigit
      ⟨whole.significand, whole.exponent, false⟩
    (scale? read.significand (read.exponent + literal.exponent.getD 0)).map signed

end Literal

end CodeAtlas.JsonNumber
