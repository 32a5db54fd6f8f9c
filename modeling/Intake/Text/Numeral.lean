/-!
# Unsigned numerals

The one grammar of numbers in settings: an optional single plus sign, then at least one ASCII
digit, then nothing else, denoting a number below a bound.  `Numeral.Denotes` states the grammar
and `Numeral.parse` reads it, testing the bound after every digit.
-/

namespace Intake
namespace Numeral

/-- The value of an ASCII digit. -/
def digit? (c : Char) : Option Nat :=
  if '0' ≤ c ∧ c ≤ '9' then some (c.toNat - '0'.toNat) else none

/-- The number written by digits that follow a value already read. -/
def valueFrom (value : Nat) : List Nat → Nat
  | [] => value
  | digit :: digits => valueFrom (value * 10 + digit) digits

/-- The characters are those of the digits, which are below ten. -/
def Spells (digits : List Nat) (written : List Char) : Prop :=
  (∀ digit ∈ digits, digit < 10) ∧ written = digits.map Nat.digitChar

/-- The text denotes the number: an optional plus sign and one or more ASCII digits. -/
def Denotes (text : List Char) (value : Nat) : Prop :=
  ∃ (sign : List Char) (written : List Char) (digits : List Nat),
    (sign = [] ∨ sign = ['+']) ∧ text = sign ++ written ∧ written ≠ [] ∧
      Spells digits written ∧ valueFrom 0 digits = value

/-- Reads digits after a value already read, giving up as soon as the bound is reached. -/
def accumulate (bound : Nat) : Nat → List Char → Option Nat
  | value, [] => some value
  | value, c :: rest => do
      let digit ← digit? c
      let next := value * 10 + digit
      if next < bound then accumulate bound next rest else none

/-- Reads one or more digits. -/
def digits (bound : Nat) : List Char → Option Nat
  | [] => none
  | first :: rest => accumulate bound 0 (first :: rest)

/-- Reads an unsigned numeral below `bound`. -/
def parse (bound : Nat) (text : String) : Option Nat :=
  match text.toList with
  | '+' :: rest => digits bound rest
  | unsigned => digits bound unsigned

/-- Reads a number of sixteen bits. -/
def parse16 (text : String) : Option UInt16 :=
  (parse UInt16.size text).map UInt16.ofNat

/-- Reads a number of thirty-two bits. -/
def parse32 (text : String) : Option UInt32 :=
  (parse UInt32.size text).map UInt32.ofNat

/-- Reads a number of sixty-four bits. -/
def parse64 (text : String) : Option UInt64 :=
  (parse UInt64.size text).map UInt64.ofNat

end Numeral
end Intake
