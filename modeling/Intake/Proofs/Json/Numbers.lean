import Intake.Proofs.Json.Lexemes
import Intake.Proofs.Text.Digits

/-!
# Whole numbers as they are written and read

A whole number is written as an optional minus sign and its digits.  A text that follows it and does
not go on with the number lets the scanner read just these digits, and they denote the number.
-/

namespace Intake
namespace Json

open Numeral

/-! ## Digits as bytes -/

/-- The byte of a digit. -/
def digitByte (digit : Nat) : UInt8 := UInt8.ofNat (48 + digit)

theorem isDigit_digitByte {digit : Nat} (small : digit < 10) :
    isDigit (digitByte digit) = true := by
  have all : ∀ digit < 10, isDigit (digitByte digit) = true := by decide
  exact all digit small

theorem digitByte_toNat {digit : Nat} (small : digit < 10) :
    (digitByte digit).toNat - 48 = digit := by
  have all : ∀ digit < 10, (digitByte digit).toNat - 48 = digit := by decide
  exact all digit small

theorem utf8_digits {digits : List Nat} (small : ∀ digit ∈ digits, digit < 10) :
    utf8 (digits.map Nat.digitChar) = digits.map digitByte := by
  have each : ∀ digit < 10, String.utf8EncodeChar (Nat.digitChar digit) = [digitByte digit] := by
    decide
  rw [utf8, List.flatMap_map]
  rw [List.flatMap_congr fun digit digit_mem => each digit (small digit digit_mem),
    List.map_eq_flatMap]

/-! ## Scanning -/

theorem isWhole_decimal (value : Nat) : IsWhole ((decimal value).map digitByte) := by
  refine ⟨⟨?_, List.forall_mem_map.mpr fun digit digit_mem =>
    isDigit_digitByte (decimal_lt_ten value digit digit_mem)⟩, fun zero => ?_⟩
  · rw [ne_eq, List.map_eq_nil_iff]
    exact decimal_ne_nil value
  · cases written : decimal value with
    | nil => exact absurd written (decimal_ne_nil value)
    | cons first others =>
        have only_zero : ∀ digit < 10, digitByte digit = 0x30 → digit = 0 := by decide
        have small := decimal_lt_ten value first (written ▸ List.mem_cons_self)
        rw [written] at zero
        obtain rfl := only_zero first small (Option.some.inj zero)
        rw [eq_nil_of_decimal_eq_zero_cons written]
        rfl

theorem scanWhole_decimal (value : Nat) {rest : List UInt8} (stops : Stops rest) :
    scanWhole ((decimal value).map digitByte ++ rest) = .ok (decimal value, rest) := by
  have values : ((decimal value).map digitByte).map (fun byte => byte.toNat - 48) =
      decimal value := by
    rw [List.map_map]
    exact (List.map_congr_left fun digit digit_mem =>
      digitByte_toNat (decimal_lt_ten value digit digit_mem)).trans (List.map_id _)
  rw [scanWhole_append (isWhole_decimal value) stops.noDigit, values]

theorem scanUnsigned_decimal (negative : Bool) (value : Nat) {rest : List UInt8}
    (stops : Stops rest) :
    scanUnsigned negative ((decimal value).map digitByte ++ rest) =
      .ok (⟨negative, decimal value, [], none⟩, rest) := by
  simp only [scanUnsigned, scanWhole_decimal value stops, scanFraction_stops stops,
    scanExponent_stops stops, Bind.bind, Except.bind, Pure.pure, Except.pure]

/-- A whole number as it is written. -/
def wholeText (value : Int) : NumberText :=
  ⟨decide (value < 0), decimal value.natAbs, [], none⟩

theorem utf8_toDigits (value : Nat) :
    utf8 (Nat.toDigits 10 value) = (decimal value).map digitByte := by
  rw [toDigits_eq_map, utf8_digits (decimal_lt_ten value)]

theorem scanNumber_whole (value : Int) {rest : List UInt8} (stops : Stops rest) :
    scanNumber (utf8 (wholeChars value) ++ rest) = .ok (wholeText value, rest) := by
  unfold wholeChars wholeText
  by_cases negative : value < 0
  · rw [if_pos negative, decide_eq_true negative]
    change scanNumber (0x2D :: (utf8 (Nat.toDigits 10 value.natAbs) ++ rest)) = _
    rw [utf8_toDigits]
    exact scanUnsigned_decimal true value.natAbs stops
  · rw [if_neg negative, decide_eq_false negative, utf8_toDigits,
      ← scanUnsigned_decimal false value.natAbs stops]
    cases written : decimal value.natAbs with
    | nil => exact absurd written (decimal_ne_nil _)
    | cons first others =>
        have first_small := decimal_lt_ten value.natAbs first (written ▸ List.mem_cons_self)
        unfold scanNumber
        split
        case h_1 after shape =>
          have no_sign : ∀ digit < 10, digitByte digit ≠ 0x2D := by decide
          exact absurd (List.cons.inj shape).1 (no_sign first first_small)
        case h_2 => rfl

/-! ## What is denoted -/

namespace NumberText

theorem absorb_eq {bound value : Nat} {digits : List Nat} (fits : valueFrom value digits < bound) :
    absorb bound value digits = (valueFrom value digits, []) := by
  induction digits generalizing value with
  | nil => rfl
  | cons digit digits induction =>
      have next_fits := Nat.lt_of_le_of_lt (le_valueFrom (value * 10 + digit) digits) fits
      rw [absorb, if_pos next_fits]
      exact induction fits

theorem significand_wholeText {value : Int} (fits : value.natAbs < UInt64.size) :
    (wholeText value).significand = (value.natAbs, 0) := by
  have absorbed : absorb UInt64.size 0 (decimal value.natAbs) = (value.natAbs, []) := by
    have denoted := valueFrom_decimal value.natAbs
    rw [absorb_eq (by rw [denoted]; exact fits), denoted]
  rw [significand, wholeText, absorbed]
  rfl

end NumberText

theorem ofInt?_value (whole : Whole) : Whole.ofInt? whole.value = some whole :=
  dif_pos ⟨whole.ge_least, whole.lt_bound⟩

/-- A whole number that fits denotes itself as it is written. -/
theorem value_wholeText (whole : Whole) : (wholeText whole.value).value = .ok (.whole whole) := by
  have least_eq : Counter.least = -9223372036854775808 := rfl
  have size_eq : UInt64.size = 18446744073709551616 := rfl
  have ge_least := whole.ge_least
  have lt_bound := whole.lt_bound
  have fits : whole.value.natAbs < UInt64.size := by omega
  have exact_value :
      (if decide (whole.value < 0) then -(whole.value.natAbs : Int) else whole.value.natAbs) =
        whole.value := by
    split
    case isTrue negative =>
      have := of_decide_eq_true negative
      omega
    case isFalse negative =>
      have := of_decide_eq_false (Bool.eq_false_of_not_eq_true negative)
      omega
  have not_minus_zero : ¬(decide (whole.value < 0) = true ∧ whole.value.natAbs = 0) := by
    rintro ⟨negative, zero⟩
    have := of_decide_eq_true negative
    omega
  have no_fraction : ¬((wholeText whole.value).fraction ≠ [] ∨ (0 : Int) ≠ 0) := by
    simp [wholeText]
  have no_exponent : (wholeText whole.value).exponent = none := rfl
  have sign : (wholeText whole.value).negative = decide (whole.value < 0) := rfl
  simp only [NumberText.value, NumberText.significand_wholeText fits, no_exponent, sign,
    if_neg no_fraction]
  rw [exact_value, ofInt?_value]
  exact if_neg not_minus_zero

end Json
end Intake
