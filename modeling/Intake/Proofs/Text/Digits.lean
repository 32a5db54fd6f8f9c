import Intake.Text.Numeral
import Mathlib.Tactic

/-!
# Decimal digits

The digits with which numbers are written, as numbers below ten.  Readers of decimal text that work
on characters, on bytes or on digits all go back to the facts of this file.
-/

namespace Intake
namespace Numeral

/-- The digits of a number, most significant first. -/
def decimal (value : Nat) : List Nat := (Nat.toDigits 10 value).map fun c => c.toNat - 48

theorem decimal_eq_if (value : Nat) :
    decimal value = if value < 10 then [value] else decimal (value / 10) ++ [value % 10] := by
  unfold decimal
  rw [Nat.toDigits_eq_if (by decide)]
  split
  case isTrue small => simp [Nat.toNat_digitChar_sub_48_of_lt_ten small]
  case isFalse =>
    have last_lt : value % 10 < 10 := Nat.mod_lt value (by decide)
    simp [Nat.toNat_digitChar_sub_48_of_lt_ten last_lt]

theorem decimal_lt_ten (value : Nat) : ∀ digit ∈ decimal value, digit < 10 := by
  induction value using Nat.strongRecOn with
  | ind value induction =>
      intro digit digit_mem
      rw [decimal_eq_if] at digit_mem
      split at digit_mem
      case isTrue small =>
        rw [List.mem_singleton.mp digit_mem]
        exact small
      case isFalse large =>
        rcases List.mem_append.mp digit_mem with leading | last
        · exact induction (value / 10) (by omega) digit leading
        · rw [List.mem_singleton.mp last]
          exact Nat.mod_lt value (by decide)

theorem decimal_ne_nil (value : Nat) : decimal value ≠ [] := by
  rw [decimal_eq_if]
  split <;> simp

/-- A number is written with the characters of its digits. -/
theorem toDigits_eq_map (value : Nat) :
    Nat.toDigits 10 value = (decimal value).map Nat.digitChar := by
  induction value using Nat.strongRecOn with
  | ind value induction =>
      rw [decimal_eq_if, Nat.toDigits_eq_if (by decide)]
      split
      case isTrue => rfl
      case isFalse large =>
        rw [induction (value / 10) (by omega), List.map_append, List.map_singleton]

theorem valueFrom_append (value : Nat) (leading last : List Nat) :
    valueFrom value (leading ++ last) = valueFrom (valueFrom value leading) last := by
  induction leading generalizing value with
  | nil => rfl
  | cons digit leading induction => exact induction (value * 10 + digit)

theorem valueFrom_replicate_zero (zeros : Nat) : valueFrom 0 (List.replicate zeros 0) = 0 := by
  induction zeros with
  | zero => rfl
  | succ zeros induction => exact induction

theorem le_valueFrom (value : Nat) (digits : List Nat) : value ≤ valueFrom value digits := by
  induction digits generalizing value with
  | nil => exact le_rfl
  | cons digit digits induction =>
      have further := induction (value * 10 + digit)
      rw [valueFrom]
      omega

/-- The digits of a number denote it. -/
theorem valueFrom_decimal (value : Nat) : valueFrom 0 (decimal value) = value := by
  induction value using Nat.strongRecOn with
  | ind value induction =>
      rw [decimal_eq_if]
      split
      case isTrue => simp [valueFrom]
      case isFalse large =>
        rw [valueFrom_append, induction (value / 10) (by omega)]
        simp only [valueFrom]
        omega

/-- Only zero is written with a leading zero. -/
theorem eq_nil_of_decimal_eq_zero_cons {value : Nat} {rest : List Nat}
    (leading : decimal value = 0 :: rest) : rest = [] := by
  induction value using Nat.strongRecOn generalizing rest with
  | ind value induction =>
      rw [decimal_eq_if] at leading
      split at leading
      case isTrue => exact (List.cons.inj leading).2.symm
      case isFalse large =>
        -- The leading digit is that of the tenth part, which would have to be zero.
        cases front : decimal (value / 10) with
        | nil => exact absurd front (decimal_ne_nil _)
        | cons first others =>
            rw [front, List.cons_append] at leading
            obtain ⟨rfl, -⟩ := List.cons.inj leading
            have alone : others = [] := induction (value / 10) (by omega) front
            have quotient := valueFrom_decimal (value / 10)
            rw [front, alone] at quotient
            simp only [valueFrom] at quotient
            omega

theorem length_decimal_le {value places : Nat} (places_pos : 0 < places)
    (fits : value < 10 ^ places) : (decimal value).length ≤ places := by
  rw [decimal, List.length_map]
  exact (Nat.length_toDigits_le_iff (by decide) places_pos).mpr fits

end Numeral
end Intake
