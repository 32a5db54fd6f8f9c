import Intake.Json.Value

/-!
# Numbers in JSON texts

A number is written with a sign, whole digits, fraction digits and an exponent.  Without fraction
and exponent it is a whole number where it fits.  Every other number is a double: as many leading
digits as fit sixty-four bits are kept as a significand, later digits only count as places, and the
significand is multiplied or divided once by a power of ten.
-/

namespace Intake
namespace Json

/-- How a text fails to be JSON: it ends too early, or it goes wrong. -/
inductive Defect where
  | truncated
  | malformed
  deriving DecidableEq, Repr

/-- What a number denotes. -/
inductive Number where
  | whole (value : Whole)
  | double (bits : UInt64)
  deriving DecidableEq, Repr

/-- A number as it is written. -/
structure NumberText where
  /-- Whether it has a minus sign. -/
  negative : Bool
  /-- The digits before the point. -/
  whole : List Nat
  /-- The digits after the point. -/
  fraction : List Nat
  /-- Whether the exponent is negative, and its digits. -/
  exponent : Option (Bool × List Nat)
  deriving DecidableEq, Repr

namespace NumberText

/-- A magnitude with its sign. -/
private def signed (negative : Bool) (value : Float) : Float := if negative then -value else value

/-- Appends digits to a significand as long as it stays below the bound; the digits left over. -/
def absorb (bound : Nat) : Nat → List Nat → Nat × List Nat
  | significand, [] => (significand, [])
  | significand, digit :: rest =>
      if significand * 10 + digit < bound then absorb bound (significand * 10 + digit) rest
      else (significand, digit :: rest)

/-- A power of ten as a double. -/
def powerOfTen (exponent : Nat) : Float := Float.ofScientific 1 false exponent

/-- Divides by a power of ten, in steps of the greatest power that is a double. -/
def divide (value : Float) (exponent : Nat) : Float :=
  if exponent ≤ 308 then value / powerOfTen exponent
  else if value == 0 then value
  else divide (value / powerOfTen 308) (exponent - 308)
termination_by exponent

/-- A magnitude times a power of ten, unless it is beyond every double. -/
def scale (value : Float) : Int → Except Defect Float
  | .ofNat exponent =>
      if exponent ≤ 308 then
        let scaled := value * powerOfTen exponent
        if scaled.isInf then .error .malformed else .ok scaled
      else if value == 0 then .ok value
      else .error .malformed
  | .negSucc exponent => .ok (divide value (exponent + 1))

/-- The double of a significand and a power of ten. -/
def double (negative : Bool) (significand : Nat) (exponent : Int) : Except Defect Number := do
  let magnitude ← scale (UInt64.ofNat significand).toFloat exponent
  return .double (signed negative magnitude).toBits

/-- The significand and the power of ten that the digits around the point give. -/
def significand (number : NumberText) : Nat × Int :=
  let (leading, dropped) := absorb UInt64.size 0 number.whole
  let (full, unread) := absorb UInt64.size leading number.fraction
  (full, (dropped.length : Int) - (number.fraction.length - unread.length : Nat))

/-- What the number denotes; a number beyond every double is malformed. -/
def value (number : NumberText) : Except Defect Number :=
  let (significand, places) := number.significand
  match number.exponent with
  | some (below, digits) =>
      let (exponent, unread) := absorb 2147483648 0 digits
      if unread.isEmpty then
        double number.negative significand (if below then places - exponent else places + exponent)
      else if significand ≠ 0 ∧ !below then .error .malformed
      else .ok (.double (signed number.negative 0).toBits)
  | none =>
      if number.fraction ≠ [] ∨ places ≠ 0 then double number.negative significand places
      else
        let exact : Int := if number.negative then -significand else significand
        match Whole.ofInt? exact with
        | some whole =>
            if number.negative ∧ significand = 0 then double true 0 0 else .ok (.whole whole)
        | none => double number.negative significand 0

end NumberText
end Json
end Intake
