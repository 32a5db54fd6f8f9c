/-!
# Checked arithmetic

Counters are signed numbers of sixty-four bits.  Sums and products that leave their range are not
values but a crash of the operation, described by `Overflow`.
-/

namespace Intake

/-- The arithmetic operation whose result does not fit a counter. -/
inductive Overflow where
  | addition
  | multiplication
  deriving DecidableEq, Repr

namespace Overflow

/-- The report of a crash. -/
def message : Overflow → String
  | addition => "attempt to add with overflow"
  | multiplication => "attempt to multiply with overflow"

end Overflow

namespace Counter

/-- The least counter. -/
abbrev least : Int := -9223372036854775808

/-- The first number above every counter. -/
abbrev bound : Int := 9223372036854775808

/-- A number fits a counter. -/
def Fits (value : Int) : Prop := least ≤ value ∧ value < bound

instance (value : Int) : Decidable (Fits value) := by unfold Fits; infer_instance

/-- The sum of two counters, if it fits. -/
def add (left right : Int64) : Except Overflow Int64 :=
  if Fits (left.toInt + right.toInt) then .ok (left + right) else .error .addition

/-- Twice a counter, if it fits. -/
def double (value : Int64) : Except Overflow Int64 :=
  if Fits (value.toInt * 2) then .ok (value * 2) else .error .multiplication

theorem add_eq_ok_iff {left right sum : Int64} :
    add left right = .ok sum ↔ Fits (left.toInt + right.toInt) ∧ left + right = sum := by
  unfold add
  split <;> simp_all

theorem add_eq_error_iff {left right : Int64} {cause : Overflow} :
    add left right = .error cause ↔ ¬Fits (left.toInt + right.toInt) ∧ cause = .addition := by
  unfold add
  split <;> simp_all [eq_comm]

end Counter
/-! ## Computations that may fail -/

section Computations

variable {Failure First Second : Type} {first : Except Failure First} {value : Second}

/-- A computation in two parts ends with a value when both parts do. -/
theorem bind_eq_ok {second : First → Except Failure Second} :
    (first >>= second) = .ok value ↔ ∃ middle, first = .ok middle ∧ second middle = .ok value := by
  cases first with
  | error failure => simp [bind, Except.bind]
  | ok middle => simp [bind, Except.bind]

/-- What is made of a computation is made of the value it ends with. -/
theorem map_eq_ok {made : First → Second} :
    first.map made = .ok value ↔ ∃ middle, first = .ok middle ∧ made middle = value := by
  cases first with
  | error failure => simp [Except.map]
  | ok middle => simp [Except.map]

end Computations

end Intake
