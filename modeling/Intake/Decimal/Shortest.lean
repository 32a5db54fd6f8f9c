/-!
# The shortest decimal that reads back

A finite double is a whole mantissa times a power of two.  Every real number closer to it than to
its neighbours reads back as it; among the decimals in that interval `Binary64.shortest` picks
those with the fewest digits and of these the nearest, with ties going to the even last digit.
All comparisons are between natural numbers.
-/

namespace Intake

/-- A decimal number: a whole number times a power of ten. -/
structure Decimal where
  /-- The digits, read as a whole number. -/
  digits : Nat
  /-- The power of ten. -/
  exponent : Int
  deriving DecidableEq, Repr

namespace Decimal

/-- How many decimal digits a number is written with. -/
def width (value : Nat) : Nat := (Nat.toDigits 10 value).length

/-- Moves zeros at the end of the digits into the exponent. -/
def trim : Nat → Decimal → Decimal
  | 0, decimal => decimal
  | steps + 1, decimal =>
      if decimal.digits ≠ 0 ∧ decimal.digits % 10 = 0 then
        trim steps ⟨decimal.digits / 10, decimal.exponent + 1⟩
      else
        decimal

end Decimal

/-- A finite double: its sign, and its magnitude `mantissa * 2 ^ exponent`. -/
structure Binary64 where
  /-- Whether the sign bit is set. -/
  negative : Bool
  /-- The whole mantissa. -/
  mantissa : Nat
  /-- The power of two. -/
  exponent : Int
  deriving DecidableEq, Repr

namespace Binary64

/-- The mantissa of a power of two: the first one of full length. -/
def leadingUnit : Nat := 4503599627370496

/-- Reads the sign, exponent and fraction fields of a double. -/
def ofBits (bits : UInt64) : Binary64 :=
  let negative := bits.toNat / leadingUnit / 2048 = 1
  let field : Nat := bits.toNat / leadingUnit % 2048
  let fraction : Nat := bits.toNat % leadingUnit
  if field = 0 then ⟨negative, fraction, -1074⟩
  else ⟨negative, leadingUnit + fraction, (field : Int) - 1075⟩

/-- The distance below is half of the one above at a power of two. -/
def isLowestOfBinade (number : Binary64) : Bool :=
  number.mantissa == leadingUnit && number.exponent != -1074

/-- The magnitude and the ends of its interval, in quarters of the last mantissa place. -/
def quarters (number : Binary64) : Nat × Nat × Nat :=
  let value := 4 * number.mantissa
  (if number.isLowestOfBinade then value - 1 else value - 2, value, value + 2)

/-- Factors that turn quarters of the last place into units of `10 ^ power`: a number of
quarters times the first is that number of units times the second. -/
def gridFactors (number : Binary64) (power : Int) : Nat × Nat :=
  let place := number.exponent - 2
  (Nat.pow 2 place.toNat * Nat.pow 10 (-power).toNat,
    Nat.pow 2 (-place).toNat * Nat.pow 10 power.toNat)

/-- The power of ten of the first digit of a magnitude that is not zero. -/
def magnitude (number : Binary64) : Int :=
  let (scale, unit) := number.gridFactors 0
  let value := 4 * number.mantissa * scale
  if unit ≤ value then (Decimal.width (value / unit) : Int) - 1
  else -(Decimal.width ((unit + value - 1) / value - 1) : Int)

/-- The decimal of so many digits nearest to the number, if it reads back. -/
def onGrid? (number : Binary64) (digits : Nat) : Option Decimal :=
  let power := number.magnitude - digits + 1
  let (scale, unit) := number.gridFactors power
  let (low, value, high) := number.quarters
  let closed := number.mantissa % 2 = 0
  let inside (candidate : Nat) : Bool :=
    if closed then low * scale ≤ candidate * unit && candidate * unit ≤ high * scale
    else low * scale < candidate * unit && candidate * unit < high * scale
  let below := value * scale / unit
  let above := below + 1
  let toBelow := value * scale - below * unit
  let toAbove := above * unit - value * scale
  let belowIsNearer := toBelow < toAbove || (toBelow == toAbove && below % 2 == 0)
  if inside below && (belowIsNearer || !inside above) then some ⟨below, power⟩
  else if inside above then some ⟨above, power⟩
  else none

/-- The first grid, from `digits` on, with a decimal that reads back. -/
def search (number : Binary64) : Nat → Nat → Decimal
  | 0, digits => (number.onGrid? digits).getD ⟨number.mantissa, 0⟩
  | more + 1, digits =>
      match number.onGrid? digits with
      | some decimal => decimal
      | none => search number more (digits + 1)

/-- The shortest decimal that reads back; seventeen digits always suffice. -/
def shortest (number : Binary64) : Decimal :=
  if number.mantissa = 0 then ⟨0, 0⟩ else Decimal.trim 17 (number.search 16 1)

end Binary64
end Intake
