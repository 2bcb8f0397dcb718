/-!
# Binary floating-point numbers

Values of the IEEE 754 binary formats and their arithmetic.  Every finite value is a whole
number of the format's smallest unit, so each operation is exact arithmetic on naturals
followed by one rounding to nearest, a half going to the even neighbour.
-/

namespace CodeAtlas

/-- A binary format: a finite value has at most `precision` significant bits, is a multiple of
`2 ^ -scale`, and has a magnitude below `2 ^ (width - scale)`. -/
structure Format where
  precision : Nat
  scale : Nat
  width : Nat
deriving DecidableEq, Repr

namespace Format

/-- The format of single precision. -/
def single : Format := ⟨24, 149, 277⟩

/-- The format of double precision. -/
def double : Format := ⟨53, 1074, 2098⟩

end Format

/-- A value of a binary format.  `finite negative units` is `± units · 2 ^ -scale`. -/
inductive Ieee (format : Format)
  | finite (negative : Bool) (units : Nat)
  | infinite (negative : Bool)
  | notANumber (negative : Bool)
deriving DecidableEq, Repr

abbrev Binary32 := Ieee .single

abbrev Binary64 := Ieee .double

namespace Ieee

variable {format : Format}

/-- The quotient rounded to a whole number with at most `precision` significant bits: to the
nearest, a half to the even neighbour. -/
def roundQuotient (precision numerator denominator : Nat) : Nat :=
  let step := Nat.pow 2 ((numerator / denominator).log2 + 1 - precision)
  let divisor := denominator * step
  let quotient := numerator / divisor
  let twice := 2 * (numerator % divisor)
  let rounded :=
    if twice < divisor then quotient
    else if divisor < twice then quotient + 1
    else if quotient % 2 = 0 then quotient else quotient + 1
  rounded * step

/-- The value nearest to `± numerator / denominator` units. -/
def ofUnits (format : Format) (negative : Bool) (numerator denominator : Nat) : Ieee format :=
  let units := roundQuotient format.precision numerator denominator
  if units < Nat.pow 2 format.width then .finite negative units else .infinite negative

/-- The value nearest to `± numerator / denominator`. -/
def ofRatio (format : Format) (negative : Bool) (numerator denominator : Nat) : Ieee format :=
  ofUnits format negative (numerator * Nat.pow 2 format.scale) denominator

def ofNat (format : Format) (value : Nat) : Ieee format :=
  ofRatio format false value 1

def ofInt (format : Format) (value : Int) : Ieee format :=
  ofRatio format (decide (value < 0)) value.natAbs 1

/-- The value nearest to `± digits · 10 ^ exponent`. -/
def ofDecimal (format : Format) (negative : Bool) (digits : Nat) (exponent : Int) :
    Ieee format :=
  if 0 ≤ exponent then ofRatio format negative (digits * Nat.pow 10 exponent.toNat) 1
  else ofRatio format negative digits (Nat.pow 10 (-exponent).toNat)

def zero : Ieee format := .finite false 0

instance : Inhabited (Ieee format) := ⟨zero⟩

def isNegative : Ieee format → Bool
  | .finite negative _ | .infinite negative | .notANumber negative => negative

def isFinite : Ieee format → Bool
  | .finite _ _ => true
  | _ => false

def neg : Ieee format → Ieee format
  | .finite negative units => .finite (!negative) units
  | .infinite negative => .infinite (!negative)
  | .notANumber negative => .notANumber (!negative)

/-- The number of units with its sign. -/
def signedUnits (negative : Bool) (units : Nat) : Int :=
  if negative then -(units : Int) else units

/-- The sum, rounded once.  A sum of zero is positive unless both terms are negative. -/
def add : Ieee format → Ieee format → Ieee format
  | .notANumber negative, _ => .notANumber negative
  | _, .notANumber negative => .notANumber negative
  | .infinite first, .infinite second =>
      if first = second then .infinite first else .notANumber true
  | .infinite negative, _ => .infinite negative
  | _, .infinite negative => .infinite negative
  | .finite first left, .finite second right =>
      let sum := signedUnits first left + signedUnits second right
      if sum = 0 then .finite (first && second) 0
      else ofUnits format (decide (sum < 0)) sum.natAbs 1

def sub (first second : Ieee format) : Ieee format :=
  match second with
  | .notANumber negative => add first (.notANumber negative)
  | _ => add first second.neg

/-- The product, rounded once. -/
def mul : Ieee format → Ieee format → Ieee format
  | .notANumber negative, _ => .notANumber negative
  | _, .notANumber negative => .notANumber negative
  | .infinite first, .infinite second => .infinite (first != second)
  | .infinite first, .finite second units =>
      if units = 0 then .notANumber true else .infinite (first != second)
  | .finite first units, .infinite second =>
      if units = 0 then .notANumber true else .infinite (first != second)
  | .finite first left, .finite second right =>
      ofUnits format (first != second) (left * right) (Nat.pow 2 format.scale)

/-- The quotient, rounded once. -/
def div : Ieee format → Ieee format → Ieee format
  | .notANumber negative, _ => .notANumber negative
  | _, .notANumber negative => .notANumber negative
  | .infinite _, .infinite _ => .notANumber true
  | .infinite first, .finite second _ => .infinite (first != second)
  | .finite first _, .infinite second => .finite (first != second) 0
  | .finite first left, .finite second right =>
      if right = 0 then
        if left = 0 then .notANumber true else .infinite (first != second)
      else ofUnits format (first != second) (left * Nat.pow 2 format.scale) right

instance : Neg (Ieee format) := ⟨neg⟩
instance : Add (Ieee format) := ⟨add⟩
instance : Sub (Ieee format) := ⟨sub⟩
instance : Mul (Ieee format) := ⟨mul⟩
instance : Div (Ieee format) := ⟨div⟩

/-- A place on the number line: units with a sign, the infinities beyond all finite values. -/
def position (format : Format) : Ieee format → Option Int
  | .finite negative units => some (signedUnits negative units)
  | .infinite negative => some (signedUnits negative (Nat.pow 2 format.width))
  | .notANumber _ => none

/-- Strictly smaller; never true of a value that is not a number. -/
def lt (first second : Ieee format) : Bool :=
  match first.position, second.position with
  | some left, some right => left < right
  | _, _ => false

/-- Smaller or equal; never true of a value that is not a number. -/
def le (first second : Ieee format) : Bool :=
  match first.position, second.position with
  | some left, some right => left ≤ right
  | _, _ => false

/-- The rank in the total order of IEEE 754: a negative zero stands before a positive one, and
values that are not numbers stand beyond the infinities of their sign. -/
def rank : Ieee format → Int
  | .finite negative units =>
      if negative then -(units : Int) - 1 else units
  | .infinite negative =>
      if negative then -(Nat.pow 2 format.width : Int) - 1 else Nat.pow 2 format.width
  | .notANumber negative =>
      if negative then -(Nat.pow 2 format.width : Int) - 2 else Nat.pow 2 format.width + 1

/-- The value held between two bounds; a value that is not a number stays. -/
def clamp (value lower upper : Ieee format) : Ieee format :=
  let raised := if value.lt lower then lower else value
  if upper.lt raised then upper else raised

/-- The same value in another format, rounded once. -/
def convert (target : Format) : Ieee format → Ieee target
  | .finite negative units =>
      ofUnits target negative (units * Nat.pow 2 target.scale) (Nat.pow 2 format.scale)
  | .infinite negative => .infinite negative
  | .notANumber negative => .notANumber negative

/-- The bits of the interchange encoding, as a natural number. -/
def toBits : Ieee format → Nat
  | .finite negative units =>
      let fraction := format.precision - 1
      let lowered := units.log2 - fraction
      let magnitude :=
        if units < Nat.pow 2 fraction then units
        else (lowered + 1) * Nat.pow 2 fraction + (units / Nat.pow 2 lowered - Nat.pow 2 fraction)
      signBit negative + magnitude
  | .infinite negative => signBit negative + infinityBits
  | .notANumber negative => signBit negative + infinityBits + Nat.pow 2 (format.precision - 2)
where
  /-- The exponent field of all ones. -/
  infinityBits : Nat := (format.width - format.precision + 2) * Nat.pow 2 (format.precision - 1)
  /-- The first power of two above the exponent field. -/
  signBit (negative : Bool) : Nat :=
    if negative then Nat.pow 2 ((format.width - format.precision + 2).log2 + format.precision)
    else 0

end Ieee

example : (Ieee.ofRatio .single false 1 2).toBits = 0x3f000000 := by decide +kernel
example : (Ieee.ofDecimal .single false 1 (-1)).toBits = 0x3dcccccd := by decide +kernel
example : (Ieee.infinite true : Binary32).toBits = 0xff800000 := by decide +kernel
example : (Ieee.notANumber false : Binary32).toBits = 0x7fc00000 := by decide +kernel
example : (Ieee.ofDecimal .double false 1 (-1)).toBits = 0x3fb999999999999a := by decide +kernel

end CodeAtlas
