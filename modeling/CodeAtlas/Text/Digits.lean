/-!
# Decimal digits in texts

Fixed-width numbers and the digits at the head of a text.
-/

namespace CodeAtlas.Text

/-- The value of an ASCII digit. -/
def digitValue (c : Char) : Nat := c.toNat - '0'.toNat

/-- The number that a sequence of digits writes. -/
def natural (digits : List Char) : Nat :=
  digits.foldl (fun total digit => total * 10 + digitValue digit) 0

/-- A number with zeros in front up to a width. -/
def padded (width value : Nat) : List Char :=
  let digits := Nat.toDigits 10 value
  List.replicate (width - digits.length) '0' ++ digits

/-- At least one and at most `most` digits at the head, as a number, and what follows. -/
def takeNatural? (most : Nat) (characters : List Char) : Option (Nat × List Char) :=
  let digits := (characters.takeWhile Char.isDigit).take most
  if digits.isEmpty then none else some (natural digits, characters.drop digits.length)

end CodeAtlas.Text
