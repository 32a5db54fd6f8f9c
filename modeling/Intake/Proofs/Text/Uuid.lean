import Intake.Uuid
import Mathlib.Tactic

/-!
# Identifiers as they are written and read

The written form of an identifier is read back as the identifier: digit by digit, octet by octet,
group by group.
-/

namespace Intake
namespace Uuid

/-! ## Digits -/

theorem octets?_hexDigits (octets : List UInt8) : octets? (hexDigits octets) = some octets := by
  induction octets with
  | nil => rfl
  | cons octet rest induction =>
      have high_small : octet.toNat / 16 < 16 := Nat.div_lt_of_lt_mul octet.toNat_lt
      have low_small : octet.toNat % 16 < 16 := Nat.mod_lt _ (by decide)
      have whole : UInt8.ofNat (octet.toNat / 16 * 16 + octet.toNat % 16) = octet := by
        rw [Nat.div_add_mod', UInt8.ofNat_toNat]
      rw [hexDigits, octets?, Hex.value?_digitChar high_small, Hex.value?_digitChar low_small,
        induction]
      simp only [Option.bind_eq_bind, Option.bind_some, Option.pure_def, whole]

theorem length_hexDigits (octets : List UInt8) : (hexDigits octets).length = 2 * octets.length := by
  induction octets with
  | nil => rfl
  | cons octet rest induction =>
      rw [hexDigits, List.length_cons, List.length_cons, List.length_cons, induction]
      omega

/-! ## Groups -/

theorem unhyphenate?_hyphenate {groups : List Nat} {digits : List Char}
    (enough : groups.sum ≤ digits.length) :
    unhyphenate? groups (hyphenate groups digits) = some digits := by
  induction groups generalizing digits with
  | nil => rfl
  | cons group rest induction =>
      rw [List.sum_cons] at enough
      have front_length : (digits.take group).length = group := by
        rw [List.length_take]
        omega
      have rest_enough : rest.sum ≤ (digits.drop group).length := by
        rw [List.length_drop]
        omega
      rw [hyphenate, unhyphenate?, List.drop_left' front_length, List.take_left' front_length]
      change (unhyphenate? rest (hyphenate rest (digits.drop group))).map
        (digits.take group ++ ·) = _
      rw [induction rest_enough, Option.map_some, List.take_append_drop]

theorem length_hyphenate {groups : List Nat} {digits : List Char}
    (enough : groups.sum ≤ digits.length) :
    (hyphenate groups digits).length = digits.length + groups.length := by
  induction groups generalizing digits with
  | nil => rfl
  | cons group rest induction =>
      rw [List.sum_cons] at enough
      have rest_enough : rest.sum ≤ (digits.drop group).length := by
        rw [List.length_drop]
        omega
      rw [hyphenate, List.length_append, List.length_cons, induction rest_enough,
        List.length_take, List.length_drop, List.length_cons]
      omega

/-! ## Identifiers -/

/-- The written form of an identifier is read as the identifier. -/
theorem parse_text (identifier : Uuid) : parse identifier.text = some identifier := by
  have digits_length : (hexDigits identifier.octets).length = 32 := by
    rw [length_hexDigits, identifier.length_eq]
  have enough : groups.sum ≤ (hexDigits identifier.octets).length := by
    rw [digits_length]
    decide
  have length : identifier.chars.length = 36 := by
    rw [chars, length_hyphenate enough, digits_length]
    rfl
  rw [parse, text, String.toList_ofList, ofChars?, length]
  rw [ofHyphenated?, chars, unhyphenate?_hyphenate enough]
  change ofDigits? (hexDigits identifier.octets) = _
  rw [ofDigits?, octets?_hexDigits]
  exact dif_pos identifier.length_eq

end Uuid
end Intake
