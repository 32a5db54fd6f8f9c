import Intake.Proofs.Text.Digits
import Intake.Settings

/-!
# Numerals as they are read

A text is read as a number exactly if it denotes the number and the number is below the bound.  The
reader tests the bound after every digit, which makes no difference: no digit lowers the value of
those before it.  Settings of every width, and spans in milliseconds, go through this one reader.
-/

namespace Intake
namespace Numeral

/-! ## Digits -/

/-- A character is read as a digit exactly if it is the character of that digit. -/
theorem digit?_eq_some_iff {c : Char} {digit : Nat} :
    digit? c = some digit ↔ digit < 10 ∧ c = Nat.digitChar digit := by
  constructor
  · intro read
    unfold digit? at read
    split at read
    case isTrue decimal =>
      obtain rfl := Option.some.inj read
      have lower : 48 ≤ c.toNat := decimal.1
      have upper : c.toNat ≤ 57 := decimal.2
      have zero : '0'.toNat = 48 := rfl
      have small : c.toNat - '0'.toNat < 10 := by omega
      refine ⟨small, Char.toNat_inj.mp ?_⟩
      rw [Nat.toNat_digitChar_of_lt_ten small]
      omega
    case isFalse => cases read
  · rintro ⟨small, rfl⟩
    have all : ∀ digit < 10, digit? (Nat.digitChar digit) = some digit := by decide
    exact all digit small

theorem spells_nil_iff {digits : List Nat} : Spells digits [] ↔ digits = [] := by
  cases digits <;> simp [Spells]

/-- What spells digits from a character on starts with the character of a digit. -/
theorem exists_spells_cons {c : Char} {rest : List Char} {P : List Nat → Prop} :
    (∃ digits, Spells digits (c :: rest) ∧ P digits) ↔
      ∃ digit, digit? c = some digit ∧ ∃ digits, Spells digits rest ∧ P (digit :: digits) := by
  simp only [digit?_eq_some_iff]
  constructor
  · rintro ⟨digits, ⟨small, spelled⟩, holds⟩
    cases digits with
    | nil => cases spelled
    | cons digit digits =>
        obtain ⟨first, others⟩ := List.cons.inj spelled
        obtain ⟨digit_small, digits_small⟩ := List.forall_mem_cons.mp small
        exact ⟨digit, ⟨digit_small, first⟩, digits, ⟨digits_small, others⟩, holds⟩
  · rintro ⟨digit, ⟨digit_small, rfl⟩, digits, ⟨digits_small, rfl⟩, holds⟩
    exact ⟨digit :: digits, ⟨List.forall_mem_cons.mpr ⟨digit_small, digits_small⟩, rfl⟩, holds⟩

/-- Digits are read behind a value exactly if the value they lead to is below the bound. -/
theorem accumulate_eq_some_iff {bound value result : Nat} {written : List Char}
    (below : value < bound) :
    accumulate bound value written = some result ↔
      ∃ digits, Spells digits written ∧ valueFrom value digits = result ∧ result < bound := by
  induction written generalizing value with
  | nil =>
      simp only [accumulate, Option.some.injEq, spells_nil_iff, exists_eq_left, valueFrom]
      constructor
      · rintro rfl
        exact ⟨rfl, below⟩
      · exact And.left
  | cons c rest induction =>
      rw [exists_spells_cons]
      cases read : digit? c with
      | none => simp [accumulate, read]
      | some digit =>
          simp only [accumulate, read, Option.bind_eq_bind, Option.bind_some, Option.some.injEq,
            exists_eq_left', valueFrom]
          split
          case isTrue next_below => exact induction next_below
          case isFalse reached =>
            simp only [reduceCtorEq, false_iff]
            rintro ⟨digits, -, denoted, fits⟩
            have grown := le_valueFrom (value * 10 + digit) digits
            omega

theorem digits_eq_some_iff {bound result : Nat} {written : List Char} (bound_pos : 0 < bound) :
    digits bound written = some result ↔
      written ≠ [] ∧ ∃ digits, Spells digits written ∧ valueFrom 0 digits = result ∧
        result < bound := by
  cases written with
  | nil => simp [digits]
  | cons c rest =>
      rw [digits, accumulate_eq_some_iff bound_pos]
      exact (and_iff_right (List.cons_ne_nil c rest)).symm

/-! ## Numerals -/

/-- What digits spell does not start with a plus sign. -/
theorem Spells.head_ne_plus {digits : List Nat} {written : List Char}
    (spelled : Spells digits written) : written.head? ≠ some '+' := by
  obtain ⟨small, rfl⟩ := spelled
  have no_plus : ∀ digit < 10, Nat.digitChar digit ≠ '+' := by decide
  cases digits with
  | nil => simp
  | cons digit digits =>
      intro plus
      exact no_plus digit (small digit List.mem_cons_self) (Option.some.inj plus)

/-- A plus sign is no digit, so a sign and digits can be told apart. -/
theorem denotes_iff {text : List Char} {value : Nat} :
    Denotes text value ↔
      ∃ written digits, (text = '+' :: written ∨ text = written ∧ text.head? ≠ some '+') ∧
        written ≠ [] ∧ Spells digits written ∧ valueFrom 0 digits = value := by
  constructor
  · rintro ⟨sign, written, digits, rfl | rfl, whole, some_written, spelled, denoted⟩
    · have unsigned : text.head? ≠ some '+' := whole ▸ spelled.head_ne_plus
      exact ⟨written, digits, .inr ⟨whole, unsigned⟩, some_written, spelled, denoted⟩
    · exact ⟨written, digits, .inl whole, some_written, spelled, denoted⟩
  · rintro ⟨written, digits, signed | ⟨unsigned, -⟩, some_written, spelled, denoted⟩
    · exact ⟨['+'], written, digits, .inr rfl, signed, some_written, spelled, denoted⟩
    · exact ⟨[], written, digits, .inl rfl, unsigned, some_written, spelled, denoted⟩

/-- A text is read as a number exactly if it denotes it and it is below the bound. -/
theorem parse_eq_some_iff {bound value : Nat} {text : String} (bound_pos : 0 < bound) :
    parse bound text = some value ↔ Denotes text.toList value ∧ value < bound := by
  rw [denotes_iff]
  unfold parse
  split
  case h_1 rest signed =>
    rw [digits_eq_some_iff bound_pos, signed]
    constructor
    · rintro ⟨some_written, digits, spelled, denoted, fits⟩
      exact ⟨⟨rest, digits, .inl rfl, some_written, spelled, denoted⟩, fits⟩
    · rintro ⟨⟨written, digits, whole, some_written, spelled, denoted⟩, fits⟩
      rcases whole with same | ⟨-, unsigned⟩
      · obtain ⟨-, rfl⟩ := List.cons.inj same
        exact ⟨some_written, digits, spelled, denoted, fits⟩
      · exact absurd rfl unsigned
  case h_2 unsigned =>
    rw [digits_eq_some_iff bound_pos]
    constructor
    · rintro ⟨some_written, digits, spelled, denoted, fits⟩
      refine ⟨⟨text.toList, digits, .inr ⟨rfl, ?_⟩, some_written, spelled, denoted⟩, fits⟩
      intro plus
      obtain ⟨rest, signed⟩ := List.head?_eq_some_iff.mp plus
      exact unsigned rest signed
    · rintro ⟨⟨written, digits, whole, some_written, spelled, denoted⟩, fits⟩
      rcases whole with signed | ⟨rfl, -⟩
      · exact absurd signed (unsigned written)
      · exact ⟨some_written, digits, spelled, denoted, fits⟩

/-- The decimal text of a number denotes it. -/
theorem denotes_toString (value : Nat) : Denotes (toString value).toList value := by
  rw [Nat.toString_eq_repr, Nat.toList_repr, toDigits_eq_map]
  exact ⟨[], _, decimal value, .inl rfl, rfl,
    fun none_written => decimal_ne_nil value (List.map_eq_nil_iff.mp none_written),
    ⟨decimal_lt_ten value, rfl⟩, valueFrom_decimal value⟩

/-- No text denotes two numbers. -/
theorem Denotes.unique {text : String} {first second : Nat} (one : Denotes text.toList first)
    (other : Denotes text.toList second) : first = second := by
  -- Both are read with a bound above them, and the reader gives one number.
  have bound_pos : 0 < first + second + 1 := by omega
  have read_first := (parse_eq_some_iff bound_pos).mpr ⟨one, by omega⟩
  have read_second := (parse_eq_some_iff bound_pos).mpr ⟨other, by omega⟩
  exact Option.some.inj (read_first.symm.trans read_second)

/-! ## Words -/

/-- A word is read exactly from the texts that denote its number. -/
theorem map_parse_eq_some_iff {Word : Type} {size : Nat} {ofNat : Nat → Word} {toNat : Word → Nat}
    (toNat_ofNat : ∀ value < size, toNat (ofNat value) = value)
    (ofNat_toNat : ∀ word, ofNat (toNat word) = word) (toNat_lt : ∀ word, toNat word < size)
    {text : String} {word : Word} :
    (parse size text).map ofNat = some word ↔ Denotes text.toList (toNat word) := by
  have size_pos : 0 < size := Nat.zero_lt_of_lt (toNat_lt word)
  rw [Option.map_eq_some_iff]
  constructor
  · rintro ⟨value, read, rfl⟩
    obtain ⟨denoted, fits⟩ := (parse_eq_some_iff size_pos).mp read
    rwa [toNat_ofNat value fits]
  · intro denoted
    exact ⟨toNat word, (parse_eq_some_iff size_pos).mpr ⟨denoted, toNat_lt word⟩, ofNat_toNat word⟩

theorem parse16_eq_some_iff {text : String} {word : UInt16} :
    parse16 text = some word ↔ Denotes text.toList word.toNat :=
  map_parse_eq_some_iff (fun _ fits => UInt16.toNat_ofNat_of_lt' fits)
    (fun _ => UInt16.ofNat_toNat) UInt16.toNat_lt_size

theorem parse32_eq_some_iff {text : String} {word : UInt32} :
    parse32 text = some word ↔ Denotes text.toList word.toNat :=
  map_parse_eq_some_iff (fun _ fits => UInt32.toNat_ofNat_of_lt' fits)
    (fun _ => UInt32.ofNat_toNat) UInt32.toNat_lt_size

theorem parse64_eq_some_iff {text : String} {word : UInt64} :
    parse64 text = some word ↔ Denotes text.toList word.toNat :=
  map_parse_eq_some_iff (fun _ fits => UInt64.toNat_ofNat_of_lt' fits)
    (fun _ => UInt64.ofNat_toNat) UInt64.toNat_lt_size

example :
    ["+018446744073709551615", "18446744073709551616", "", "+", "++1", "-0", "1 "].map parse64 =
      [some 18446744073709551615, none, none, none, none, none, none] := by decide

end Numeral

/-! ## Settings -/

namespace Span

/-- So many milliseconds are the whole seconds in them and what is left over. -/
theorem eq_ofMillis_iff {span : Span} {millis : UInt64} :
    span = ofMillis millis ↔
      span.seconds.toNat = millis.toNat / 1000 ∧ span.nanos = millis.toNat % 1000 * 1000000 := by
  have seconds : (ofMillis millis).seconds.toNat = millis.toNat / 1000 := UInt64.toNat_div _ _
  constructor
  · rintro rfl
    exact ⟨seconds, rfl⟩
  · rintro ⟨same_seconds, same_nanos⟩
    have nanos : (ofMillis millis).nanos = millis.toNat % 1000 * 1000000 := rfl
    rw [← toNanos_inj, toNanos, toNanos, same_seconds, same_nanos, seconds, nanos]

end Span

namespace Setting

open Numeral

/-- A text is read as a span exactly if it denotes its milliseconds. -/
theorem millis_eq_some_iff {text : String} {span : Span} : millis text = some span ↔
    ∃ value < 2 ^ 64, Denotes text.toList value ∧
      span.seconds.toNat = value / 1000 ∧ span.nanos = value % 1000 * 1000000 := by
  rw [millis, Option.map_eq_some_iff]
  constructor
  · rintro ⟨word, read, made⟩
    exact ⟨word.toNat, word.toNat_lt, parse64_eq_some_iff.mp read,
      Span.eq_ofMillis_iff.mp made.symm⟩
  · rintro ⟨value, fits, denoted, parts⟩
    have same : (UInt64.ofNat value).toNat = value := UInt64.toNat_ofNat_of_lt' fits
    rw [← same] at denoted parts
    exact ⟨UInt64.ofNat value, parse64_eq_some_iff.mpr denoted,
      (Span.eq_ofMillis_iff.mpr parts).symm⟩

/-- A text is read as a span exactly if it denotes a number of sixty-four bits, and the span is then
that many milliseconds; every such number is read back from its decimal text.  Numbers of sixteen,
thirty-two and sixty-four bits are read from the texts that denote them, and from no others. -/
theorem numerals_have_one_grammar :
    (∀ (text : String) (span : Span), millis text = some span ↔
      ∃ value < 2 ^ 64, Denotes text.toList value ∧
        span.seconds.toNat = value / 1000 ∧ span.nanos = value % 1000 * 1000000) ∧
    (∀ value : UInt64, millis (toString value) = some (.ofMillis value) ∧
      parse64 (toString value) = some value) ∧
    (∀ (text : String) (value : UInt16), parse16 text = some value ↔
      Denotes text.toList value.toNat) ∧
    (∀ (text : String) (value : UInt32), parse32 text = some value ↔
      Denotes text.toList value.toNat) ∧
    ∀ (text : String) (value : UInt64), parse64 text = some value ↔
      Denotes text.toList value.toNat := by
  have read_back (value : UInt64) : parse64 (toString value) = some value :=
    parse64_eq_some_iff.mpr (denotes_toString value.toNat)
  refine ⟨fun _ _ => millis_eq_some_iff, fun value => ⟨?_, read_back value⟩,
    fun _ _ => parse16_eq_some_iff, fun _ _ => parse32_eq_some_iff, fun _ _ => parse64_eq_some_iff⟩
  rw [millis, read_back]
  rfl

end Setting
end Intake
