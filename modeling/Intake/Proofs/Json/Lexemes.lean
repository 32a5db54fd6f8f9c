import Intake.Proofs.Json.Strings
import Mathlib.Data.List.TakeWhile

/-!
# Scanners take exactly the grammar

A number of the grammar is scanned up to its end, whatever follows that does not go on with it, and
what is scanned was of the grammar.  With what holds of strings, a token that is not faulty takes
its own spelling from the front of a text, and no more.
-/

namespace Intake
namespace Json

/-! ## Numbers -/

/-- No number goes on in a text. -/
def Stops (text : List UInt8) : Prop :=
  ∀ byte ∈ text.head?, ¬isDigit byte ∧ byte ≠ 0x2E ∧ byte ≠ 0x65 ∧ byte ≠ 0x45

theorem stops_nil : Stops [] := by
  rintro byte ⟨⟩

/-- No digit comes next. -/
def NoDigit (text : List UInt8) : Prop := ∀ byte ∈ text.head?, isDigit byte = false

theorem Stops.noDigit {text : List UInt8} (stops : Stops text) : NoDigit text :=
  fun byte byte_mem => Bool.eq_false_iff.mpr (stops byte byte_mem).1

theorem someDigits_append {digits rest : List UInt8} (are_digits : IsDigits digits)
    (no_digit : NoDigit rest) :
    someDigits (digits ++ rest) = .ok (digits.map fun byte => byte.toNat - 48, rest) := by
  have none_left : rest.takeWhile isDigit = [] ∧ rest.dropWhile isDigit = rest := by
    cases rest with
    | nil => exact ⟨rfl, rfl⟩
    | cons byte rest =>
        have other : ¬isDigit byte = true := by rw [no_digit byte rfl]; decide
        exact ⟨List.takeWhile_cons_of_neg other, List.dropWhile_cons_of_neg other⟩
  obtain ⟨first, others, rfl, first_digit⟩ := are_digits.exists_cons
  rw [List.cons_append, someDigits, if_pos first_digit, splitDigits, ← List.cons_append,
    List.takeWhile_append_of_pos are_digits.2, List.dropWhile_append_of_pos are_digits.2,
    none_left.1, none_left.2, List.append_nil]

theorem isDigits_of_someDigits {text after : List UInt8} {values : List Nat}
    (scanned : someDigits text = .ok (values, after)) :
    ∃ digits, IsDigits digits ∧ text = digits ++ after ∧
      values = digits.map fun byte => byte.toNat - 48 := by
  unfold someDigits at scanned
  split at scanned
  case h_1 => cases scanned
  case h_2 first rest =>
    split at scanned
    case isTrue first_digit =>
      obtain ⟨rfl, rfl⟩ := Prod.mk.inj (Except.ok.inj scanned)
      refine ⟨(first :: rest).takeWhile isDigit, ⟨?_, ?_⟩,
        List.takeWhile_append_dropWhile.symm, rfl⟩
      · rw [List.takeWhile_cons_of_pos first_digit]
        exact List.cons_ne_nil _ _
      · exact fun byte byte_mem => List.mem_takeWhile_imp byte_mem
    case isFalse => cases scanned

/-- Of the digits only a zero has the value zero. -/
theorem eq_of_digit_zero {byte : UInt8} (digit : isDigit byte = true) (zero : byte.toNat - 48 = 0) :
    byte = 0x30 := by
  simp only [isDigit, Bool.and_eq_true, decide_eq_true_eq, UInt8.le_iff_toNat_le] at digit
  have least : (0x30 : UInt8).toNat = 48 := rfl
  exact UInt8.toNat_inj.mp (by omega)

theorem scanWhole_append {digits rest : List UInt8} (whole : IsWhole digits)
    (no_digit : NoDigit rest) :
    scanWhole (digits ++ rest) = .ok (digits.map fun byte => byte.toNat - 48, rest) := by
  obtain ⟨are_digits, alone⟩ := whole
  rw [scanWhole, someDigits_append are_digits no_digit]
  simp only [Bind.bind, Except.bind]
  split
  case h_1 values second others shape =>
    -- A leading zero is the only digit, so there is no second one.
    obtain ⟨first, tail, rfl, first_digit⟩ := are_digits.exists_cons
    obtain ⟨first_zero, tail_shape⟩ := List.cons.inj shape
    have only := alone (congrArg some (eq_of_digit_zero first_digit first_zero))
    rw [(List.cons.inj only).2] at tail_shape
    cases tail_shape
  case h_2 => rfl

theorem isWhole_of_scanWhole {text after : List UInt8} {values : List Nat}
    (scanned : scanWhole text = .ok (values, after)) :
    ∃ digits, IsWhole digits ∧ text = digits ++ after := by
  obtain ⟨⟨found, rest⟩, split, scanned⟩ := bind_eq_ok.mp scanned
  obtain ⟨digits, are_digits, rfl, rfl⟩ := isDigits_of_someDigits split
  dsimp only at scanned
  split at scanned
  case h_1 => cases scanned
  case h_2 not_leading =>
    obtain ⟨-, rfl⟩ := Prod.mk.inj (Except.ok.inj scanned)
    refine ⟨digits, ⟨are_digits, fun zero => ?_⟩, rfl⟩
    obtain ⟨first, tail, rfl, -⟩ := are_digits.exists_cons
    obtain rfl := Option.some.inj zero
    cases tail with
    | nil => rfl
    | cons second tail => exact absurd rfl (not_leading _ _)

theorem scanFraction_stops {rest : List UInt8} (stops : Stops rest) :
    scanFraction rest = .ok ([], rest) := by
  unfold scanFraction
  split
  case h_1 after => exact absurd rfl (stops 0x2E rfl).2.1
  case h_2 => rfl

/-- A fraction is scanned as it is, if neither a digit nor a point follows. -/
theorem IsFraction.scanFraction {fraction : List UInt8} (is_fraction : IsFraction fraction) :
    ∃ values, ∀ rest, NoDigit rest → rest.head? ≠ some 0x2E →
      Json.scanFraction (fraction ++ rest) = .ok (values, rest) := by
  rcases is_fraction with rfl | ⟨digits, are_digits, rfl⟩
  · refine ⟨[], fun rest _ no_point => ?_⟩
    rw [List.nil_append]
    unfold Json.scanFraction
    split
    case h_1 => exact absurd rfl no_point
    case h_2 => rfl
  · exact ⟨_, fun rest no_digit _ => someDigits_append are_digits no_digit⟩

theorem isFraction_of_scanFraction {text after : List UInt8} {values : List Nat}
    (scanned : scanFraction text = .ok (values, after)) :
    ∃ fraction, IsFraction fraction ∧ text = fraction ++ after := by
  unfold scanFraction at scanned
  split at scanned
  case h_1 rest =>
    obtain ⟨digits, are_digits, rfl, -⟩ := isDigits_of_someDigits scanned
    exact ⟨0x2E :: digits, .inr ⟨digits, are_digits, rfl⟩, rfl⟩
  case h_2 =>
    obtain ⟨-, rfl⟩ := Prod.mk.inj (Except.ok.inj scanned)
    exact ⟨[], .inl rfl, rfl⟩

theorem scanExponent_stops {rest : List UInt8} (stops : Stops rest) :
    scanExponent rest = .ok (none, rest) := by
  cases rest with
  | nil => rfl
  | cons byte rest =>
      obtain ⟨-, -, not_small, not_large⟩ := stops byte rfl
      rw [scanExponent.eq_def]
      exact if_neg (not_or.mpr ⟨not_small, not_large⟩)

/-- Digits do not start with a sign. -/
theorem not_sign {byte : UInt8} (digit : isDigit byte = true) : byte ≠ 0x2B ∧ byte ≠ 0x2D := by
  constructor <;> (rintro rfl; exact absurd digit (by decide))

/-- An exponent is scanned as it is, if no number goes on behind it. -/
theorem IsExponent.scanExponent {exponent : List UInt8} (is_exponent : IsExponent exponent) :
    ∃ values, ∀ rest, Stops rest → Json.scanExponent (exponent ++ rest) = .ok (values, rest) := by
  rcases is_exponent with rfl | ⟨mark, sign, digits, is_mark, is_sign, are_digits, rfl⟩
  · exact ⟨none, fun rest stops => scanExponent_stops stops⟩
  · have of_sign (negative : Bool) (signed : ∀ rest,
        Json.scanExponent (mark :: (sign ++ digits) ++ rest) =
          (someDigits (digits ++ rest)).map fun parts => (some (negative, parts.1), parts.2)) :
        ∃ values, ∀ rest, Stops rest →
          Json.scanExponent (mark :: (sign ++ digits) ++ rest) = .ok (values, rest) := by
      refine ⟨some (negative, digits.map fun byte => byte.toNat - 48), fun rest stops => ?_⟩
      rw [signed, someDigits_append are_digits stops.noDigit]
      rfl
    rcases is_sign with rfl | rfl | rfl
    · refine of_sign false fun rest => ?_
      obtain ⟨first, others, rfl, first_digit⟩ := are_digits.exists_cons
      rw [Json.scanExponent.eq_def]
      refine (if_pos is_mark).trans ?_
      split
      case h_1 shape => exact absurd (List.cons.inj shape).1 (not_sign first_digit).1
      case h_2 shape => exact absurd (List.cons.inj shape).1 (not_sign first_digit).2
      case h_3 => rfl
    · refine of_sign false fun rest => ?_
      rw [Json.scanExponent.eq_def]
      exact if_pos is_mark
    · refine of_sign true fun rest => ?_
      rw [Json.scanExponent.eq_def]
      exact if_pos is_mark

theorem isExponent_of_scanExponent {text after : List UInt8}
    {values : Option (Bool × List Nat)} (scanned : scanExponent text = .ok (values, after)) :
    ∃ exponent, IsExponent exponent ∧ text = exponent ++ after := by
  have of_map {rest : List UInt8}
      {label : List Nat × List UInt8 → Option (Bool × List Nat) × List UInt8}
      (keeps : ∀ parts, (label parts).2 = parts.2)
      (mapped : (someDigits rest).map label = .ok (values, after)) :
      ∃ digits, IsDigits digits ∧ rest = digits ++ after := by
    obtain ⟨⟨found, left⟩, split, labelled⟩ := map_eq_ok.mp mapped
    obtain ⟨digits, are_digits, rfl, -⟩ := isDigits_of_someDigits split
    obtain rfl : left = after := (keeps (found, left)).symm.trans (congrArg Prod.snd labelled)
    exact ⟨digits, are_digits, rfl⟩
  unfold scanExponent at scanned
  split at scanned
  case h_1 mark rest =>
    split at scanned
    case isTrue is_mark =>
      split at scanned
      case h_1 =>
        obtain ⟨digits, are_digits, rfl⟩ := of_map (fun _ => rfl) scanned
        exact ⟨_, .inr ⟨mark, [0x2B], digits, is_mark, .inr (.inl rfl), are_digits, rfl⟩, rfl⟩
      case h_2 =>
        obtain ⟨digits, are_digits, rfl⟩ := of_map (fun _ => rfl) scanned
        exact ⟨_, .inr ⟨mark, [0x2D], digits, is_mark, .inr (.inr rfl), are_digits, rfl⟩, rfl⟩
      case h_3 =>
        obtain ⟨digits, are_digits, rfl⟩ := of_map (fun _ => rfl) scanned
        exact ⟨_, .inr ⟨mark, [], digits, is_mark, .inl rfl, are_digits, rfl⟩, rfl⟩
    case isFalse =>
      obtain ⟨-, rfl⟩ := Prod.mk.inj (Except.ok.inj scanned)
      exact ⟨[], .inl rfl, rfl⟩
  case h_2 =>
    obtain ⟨-, rfl⟩ := Prod.mk.inj (Except.ok.inj scanned)
    exact ⟨[], .inl rfl, rfl⟩

/-- What may follow the whole digits of a number starts with no digit. -/
theorem noDigit_behind_whole {fraction exponent rest : List UInt8}
    (is_fraction : IsFraction fraction) (is_exponent : IsExponent exponent) (stops : Stops rest) :
    NoDigit (fraction ++ (exponent ++ rest)) := by
  rcases is_fraction with rfl | ⟨digits, -, rfl⟩
  · rcases is_exponent with rfl | ⟨mark, sign, digits, rfl | rfl, -, -, rfl⟩
    · exact stops.noDigit
    all_goals
      rintro _ ⟨⟩
      decide
  · rintro _ ⟨⟩
    decide

/-- What may follow the fraction of a number starts with neither a digit nor a point. -/
theorem stops_behind_fraction {exponent rest : List UInt8} (is_exponent : IsExponent exponent)
    (stops : Stops rest) :
    NoDigit (exponent ++ rest) ∧ (exponent ++ rest).head? ≠ some 0x2E := by
  refine ⟨noDigit_behind_whole (.inl rfl) is_exponent stops, ?_⟩
  rcases is_exponent with rfl | ⟨mark, sign, digits, rfl | rfl, -, -, rfl⟩
  · exact fun point => (stops 0x2E point).2.1 rfl
  all_goals
    rintro ⟨⟩

/-- A number is scanned as it is, if no number goes on behind it. -/
theorem IsNumber.scanNumber {text : List UInt8} (is_number : IsNumber text) :
    ∃ number, ∀ rest, Stops rest → Json.scanNumber (text ++ rest) = .ok (number, rest) := by
  obtain ⟨sign, whole, fraction, exponent, is_sign, is_whole, is_fraction, is_exponent, rfl⟩ :=
    is_number
  obtain ⟨places, fraction_scanned⟩ := is_fraction.scanFraction
  obtain ⟨power, exponent_scanned⟩ := is_exponent.scanExponent
  have unsigned (negative : Bool) (rest : List UInt8) (stops : Stops rest) :
      scanUnsigned negative (whole ++ (fraction ++ (exponent ++ rest))) =
        .ok (⟨negative, whole.map fun byte => byte.toNat - 48, places, power⟩, rest) := by
    obtain ⟨no_digit, no_point⟩ := stops_behind_fraction is_exponent stops
    rw [scanUnsigned,
      scanWhole_append is_whole (noDigit_behind_whole is_fraction is_exponent stops)]
    simp only [Bind.bind, Except.bind, fraction_scanned _ no_digit no_point,
      exponent_scanned rest stops]
    rfl
  rcases is_sign with rfl | rfl
  · refine ⟨⟨false, whole.map fun byte => byte.toNat - 48, places, power⟩, fun rest stops => ?_⟩
    rw [← unsigned false rest stops]
    obtain ⟨first, others, rfl, first_digit⟩ := is_whole.1.exists_cons
    simp only [List.nil_append, List.append_assoc, List.cons_append]
    unfold Json.scanNumber
    split
    case h_1 shape => exact absurd (List.cons.inj shape).1 (not_sign first_digit).2
    case h_2 => rfl
  · refine ⟨⟨true, whole.map fun byte => byte.toNat - 48, places, power⟩, fun rest stops => ?_⟩
    rw [← unsigned true rest stops]
    simp only [List.append_assoc, List.cons_append]
    rfl

theorem isNumber_of_scanNumber {text after : List UInt8} {number : NumberText}
    (scanned : scanNumber text = .ok (number, after)) :
    ∃ lexeme, IsNumber lexeme ∧ text = lexeme ++ after := by
  have of_unsigned {negative : Bool} {text sign : List UInt8} (is_sign : sign = [] ∨ sign = [0x2D])
      (scanned : scanUnsigned negative text = .ok (number, after)) :
      ∃ lexeme, IsNumber lexeme ∧ sign ++ text = lexeme ++ after := by
    obtain ⟨⟨integral, _⟩, whole_scanned, scanned⟩ := bind_eq_ok.mp scanned
    obtain ⟨⟨places, _⟩, fraction_scanned, scanned⟩ := bind_eq_ok.mp scanned
    obtain ⟨⟨power, left⟩, exponent_scanned, scanned⟩ := bind_eq_ok.mp scanned
    obtain ⟨-, rfl⟩ := Prod.mk.inj (Except.ok.inj scanned)
    obtain ⟨whole, is_whole, rfl⟩ := isWhole_of_scanWhole whole_scanned
    obtain ⟨fraction, is_fraction, rfl⟩ := isFraction_of_scanFraction fraction_scanned
    obtain ⟨exponent, is_exponent, rfl⟩ := isExponent_of_scanExponent exponent_scanned
    exact ⟨_, ⟨sign, whole, fraction, exponent, is_sign, is_whole, is_fraction, is_exponent, rfl⟩,
      by simp only [List.append_assoc]⟩
  unfold scanNumber at scanned
  split at scanned
  case h_1 => exact of_unsigned (.inr rfl) scanned
  case h_2 => exact of_unsigned (.inl rfl) scanned

/-- A number starts with its sign or a digit. -/
theorem IsNumber.exists_cons {text : List UInt8} (is_number : IsNumber text) :
    ∃ byte rest, text = byte :: rest ∧ (byte = 0x2D ∨ isDigit byte = true) := by
  obtain ⟨sign, whole, fraction, exponent, is_sign, is_whole, -, -, rfl⟩ := is_number
  rcases is_sign with rfl | rfl
  · obtain ⟨first, others, rfl, first_digit⟩ := is_whole.1.exists_cons
    exact ⟨first, _, rfl, .inr first_digit⟩
  · exact ⟨0x2D, _, rfl, .inl rfl⟩

/-! ## Tokens -/

/-- A token as it is spelled. -/
inductive Token.Spells : Token → List UInt8 → Prop where
  | openArray : Spells .openArray [0x5B]
  | closeArray : Spells .closeArray [0x5D]
  | openObject : Spells .openObject [0x7B]
  | closeObject : Spells .closeObject [0x7D]
  | colon : Spells .colon [0x3A]
  | comma : Spells .comma [0x2C]
  | null : Spells .null nullText
  | flag (value : Bool) : Spells (.boolean value) (flagText value)
  | number {number : NumberText} {text : List UInt8} (is_number : IsNumber text) :
      Spells (.number number) text
  | string {value : Except Defect String} {text : List UInt8} (is_string : IsString text) :
      Spells (.quoted value) text

theorem Token.Spells.ne_nil {token : Token} {text : List UInt8} (spelled : token.Spells text) :
    text ≠ [] := by
  cases spelled with
  | number is_number =>
      obtain ⟨byte, rest, rfl, -⟩ := is_number.exists_cons
      exact List.cons_ne_nil byte rest
  | string is_string =>
      obtain ⟨inner, -, rfl⟩ := is_string
      exact List.cons_ne_nil _ _
  | flag value => cases value <;> exact List.cons_ne_nil _ _
  | _ => exact List.cons_ne_nil _ _

theorem eq_toUInt8_of_ofUInt8 {byte : UInt8} {c : Char} (same : Char.ofUInt8 byte = c) :
    byte = c.toUInt8 := by
  rw [← same]
  exact (UInt8.ofNat_toNat).symm

theorem scanWord_eq {word : List Char} {text after : List UInt8}
    (scanned : scanWord word text = .ok after) : text = word.map Char.toUInt8 ++ after := by
  fun_induction scanWord word text with
  | case1 text =>
      obtain rfl := Except.ok.inj scanned
      rfl
  | case2 | case4 => cases scanned
  | case3 word byte rest induction =>
      rw [List.map_cons, List.cons_append, ← induction scanned, ← eq_toUInt8_of_ofUInt8 rfl]

/-- A token is spelled as the grammar has it, or it is faulty and nothing is left after it. -/
theorem nextToken_spells {byte : UInt8} {rest after : List UInt8} {token : Token}
    (next : nextToken byte rest = (token, after)) :
    ((∃ flaw, token = .faulty flaw) ∧ after = []) ∨
      ∃ text, token.Spells text ∧ byte :: rest = text ++ after := by
  have of_mark {c : Char} {of : Token} (mark : Char.ofUInt8 byte = c)
      (spelled : of.Spells [c.toUInt8]) (same : (of, rest) = (token, after)) :
      ((∃ flaw, token = .faulty flaw) ∧ after = []) ∨
        ∃ text, token.Spells text ∧ byte :: rest = text ++ after := by
    obtain ⟨rfl, rfl⟩ := Prod.mk.inj same
    obtain rfl := eq_toUInt8_of_ofUInt8 mark
    exact .inr ⟨_, spelled, rfl⟩
  have of_word {c : Char} {letters : List Char} {of : Token} (first : Char.ofUInt8 byte = c)
      (spelled : of.Spells ((c :: letters).map Char.toUInt8))
      (next : nextToken.word rest letters of = (token, after)) :
      ((∃ flaw, token = .faulty flaw) ∧ after = []) ∨
        ∃ text, token.Spells text ∧ byte :: rest = text ++ after := by
    unfold nextToken.word at next
    split at next
    case h_1 left scanned =>
      obtain ⟨rfl, rfl⟩ := Prod.mk.inj next
      obtain rfl := eq_toUInt8_of_ofUInt8 first
      exact .inr ⟨_, spelled, congrArg _ (scanWord_eq scanned)⟩
    case h_2 => exact .inl ⟨⟨_, (Prod.mk.inj next).1.symm⟩, (Prod.mk.inj next).2.symm⟩
  unfold nextToken at next
  split at next
  case h_1 mark => exact of_mark mark .openArray next
  case h_2 mark => exact of_mark mark .closeArray next
  case h_3 mark => exact of_mark mark .openObject next
  case h_4 mark => exact of_mark mark .closeObject next
  case h_5 mark => exact of_mark mark .colon next
  case h_6 mark => exact of_mark mark .comma next
  case h_7 quote =>
    split at next
    case h_1 pieces left scanned =>
      obtain ⟨rfl, rfl⟩ := Prod.mk.inj next
      obtain ⟨inner, cut, rfl⟩ := exists_cut_of_scanString (congrArg Prod.snd scanned)
      obtain rfl := eq_toUInt8_of_ofUInt8 quote
      exact .inr ⟨_, .string ⟨inner, quotable_iff.mpr ⟨_, cut⟩, rfl⟩, by simp; rfl⟩
    case h_2 => exact .inl ⟨⟨_, (Prod.mk.inj next).1.symm⟩, (Prod.mk.inj next).2.symm⟩
  case h_8 first => exact of_word first .null next
  case h_9 first => exact of_word first (.flag true) next
  case h_10 first => exact of_word first (.flag false) next
  case h_11 =>
    split at next
    case isTrue =>
      split at next
      case h_1 number left scanned =>
        obtain ⟨rfl, rfl⟩ := Prod.mk.inj next
        obtain ⟨lexeme, is_number, split⟩ := isNumber_of_scanNumber scanned
        exact .inr ⟨lexeme, .number is_number, split⟩
      case h_2 => exact .inl ⟨⟨_, (Prod.mk.inj next).1.symm⟩, (Prod.mk.inj next).2.symm⟩
    case isFalse => exact .inl ⟨⟨_, (Prod.mk.inj next).1.symm⟩, (Prod.mk.inj next).2.symm⟩

end Json
end Intake
