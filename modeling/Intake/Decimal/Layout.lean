import Intake.Decimal.Shortest

/-!
# Layouts of decimal numbers

A layout decides which magnitudes are written positionally and what marks a whole number; all
other magnitudes get one digit before the point and a signed exponent.
-/

namespace Intake
namespace Decimal

/-- How the digits of a number are laid out. -/
structure Layout where
  /-- Least power of ten of the first digit that is written positionally. -/
  least : Int
  /-- Greatest power of ten of the first digit that is written positionally. -/
  greatest : Int
  /-- What follows the digits of a whole number in positional form. -/
  whole : String

/-- Numbers in messages: positional from `1e-5` up to but without `1e16`, and always with a
fraction. -/
def Layout.message : Layout := ⟨-5, 15, ".0"⟩

/-- Numbers in measurements: every digit before the point is written, and no empty fraction. -/
def Layout.measurement : Layout := ⟨-400, 400, ""⟩

private def zeros (count : Nat) : String := String.ofList (List.replicate count '0')

/-- The digits with a point after the place of units. -/
def positional (layout : Layout) (decimal : Decimal) : String :=
  let digits := Nat.toDigits 10 decimal.digits
  let point := digits.length + decimal.exponent
  if 0 ≤ decimal.exponent then
    String.ofList digits ++ zeros decimal.exponent.toNat ++ layout.whole
  else if 0 < point then
    String.ofList (digits.take point.toNat) ++ "." ++ String.ofList (digits.drop point.toNat)
  else
    "0." ++ zeros (-point).toNat ++ String.ofList digits

/-- One digit, the other digits after a point, and a signed exponent. -/
def scientific (decimal : Decimal) : String :=
  let digits := Nat.toDigits 10 decimal.digits
  let power := digits.length + decimal.exponent - 1
  let fraction := if digits.length = 1 then "" else "." ++ String.ofList (digits.drop 1)
  let sign := if power < 0 then "-" else "+"
  String.ofList (digits.take 1) ++ fraction ++ "e" ++ sign ++ toString power.natAbs

/-- Writes a magnitude. -/
def write (layout : Layout) (decimal : Decimal) : String :=
  let power := width decimal.digits + decimal.exponent - 1
  if layout.least ≤ power ∧ power ≤ layout.greatest then decimal.positional layout
  else decimal.scientific

end Decimal

/-- Writes a finite double by its shortest decimal. -/
def Binary64.text (layout : Decimal.Layout) (number : Binary64) : String :=
  (if number.negative then "-" else "") ++ number.shortest.write layout

end Intake
