/-!
# Hexadecimal digits

A value below sixteen is written as `Nat.digitChar` has it, in lower case, and read from a digit in
either case.
-/

namespace Intake
namespace Hex

/-- The value of a hexadecimal digit in either case. -/
def value? (c : Char) : Option Nat :=
  if '0' ≤ c ∧ c ≤ '9' then some (c.toNat - 48)
  else if 'a' ≤ c ∧ c ≤ 'f' then some (c.toNat - 87)
  else if 'A' ≤ c ∧ c ≤ 'F' then some (c.toNat - 55)
  else none

theorem value?_digitChar {value : Nat} (small : value < 16) :
    value? (Nat.digitChar value) = some value := by
  have all : ∀ value < 16, value? (Nat.digitChar value) = some value := by decide
  exact all value small

end Hex
end Intake
