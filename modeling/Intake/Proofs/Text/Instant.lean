import Intake.Instant
import Intake.Proofs.Text.Digits
import Mathlib.Data.List.TakeWhile

/-!
# Points in time as they are written and read

A point in time in one of the years 0 to 9999, outside a leap second, is read back from its written
form: every number in its places, every separator, and the fraction of a second however many places
it takes.
-/

namespace Intake
namespace Instant

open Numeral

/-! ## Numbers in places -/

/-- The digits of a number in at least so many places. -/
def places (width value : Nat) : List Nat :=
  List.replicate (width - (decimal value).length) 0 ++ decimal value

theorem places_lt_ten (width value : Nat) : ∀ digit ∈ places width value, digit < 10 := by
  intro digit digit_mem
  rcases List.mem_append.mp digit_mem with leading | written
  · rw [List.eq_of_mem_replicate leading]
    decide
  · exact decimal_lt_ten value digit written

theorem valueFrom_places (width value : Nat) : valueFrom 0 (places width value) = value := by
  rw [places, valueFrom_append, valueFrom_replicate_zero, valueFrom_decimal]

theorem padded_eq_map (width value : Nat) :
    padded width value = (places width value).map Nat.digitChar := by
  rw [padded, places, toDigits_eq_map, List.map_append, List.map_replicate, List.length_map]
  rfl

variable {width value : Nat}

theorem length_padded (width_pos : 0 < width) (fits : value < 10 ^ width) :
    (padded width value).length = width := by
  have short := length_decimal_le width_pos fits
  rw [padded_eq_map, List.length_map, places, List.length_append, List.length_replicate]
  omega

theorem isDigit_of_mem_padded {c : Char} (c_mem : c ∈ padded width value) : isDigit c = true := by
  have all : ∀ digit < 10, isDigit (Nat.digitChar digit) = true := by decide
  rw [padded_eq_map] at c_mem
  obtain ⟨digit, digit_mem, rfl⟩ := List.mem_map.mp c_mem
  exact all digit (places_lt_ten width value digit digit_mem)

theorem number_padded (width value : Nat) : number (padded width value) = value := by
  have folded (digits : List Nat) (small : ∀ digit ∈ digits, digit < 10) (start : Nat) :
      (digits.map Nat.digitChar).foldl (fun value c => value * 10 + (c.toNat - 48)) start =
        valueFrom start digits := by
    induction digits generalizing start with
    | nil => rfl
    | cons digit rest induction =>
        have digit_small := small digit List.mem_cons_self
        rw [List.map_cons, List.foldl_cons, Nat.toNat_digitChar_sub_48_of_lt_ten digit_small]
        exact induction (fun other later => small other (List.mem_cons_of_mem digit later)) _
  rw [padded_eq_map, number, folded _ (places_lt_ten width value), valueFrom_places]

theorem digits?_padded (width_pos : 0 < width) (fits : value < 10 ^ width) (rest : List Char) :
    digits? width (padded width value ++ rest) = some (value, rest) := by
  have length := length_padded width_pos fits
  have all_digits : (padded width value).takeWhile isDigit = padded width value :=
    List.takeWhile_eq_self_iff.mpr fun c c_mem => isDigit_of_mem_padded c_mem
  have nonempty : ¬(padded width value).isEmpty = true := by
    rw [List.isEmpty_iff_length_eq_zero, length]
    exact width_pos.ne'
  rw [digits?, List.take_left' length, all_digits, if_neg nonempty, number_padded,
    List.drop_left' rfl]

/-! ## Parts -/

theorem skipBlanks_cons {c : Char} (solid : isBlank c = false) (rest : List Char) :
    skipBlanks (c :: rest) = c :: rest :=
  List.dropWhile_cons_of_neg (by simp [solid])

theorem isBlank_of_isDigit {c : Char} (digit : isDigit c = true) : isBlank c = false := by
  have code : 48 ≤ c.toNat ∧ c.toNat ≤ 57 := by
    simp only [isDigit, Bool.and_eq_true, decide_eq_true_eq] at digit
    exact digit
  simp only [isBlank, Bool.or_eq_false_iff, Bool.and_eq_false_iff, decide_eq_false_iff_not,
    beq_eq_false_iff_ne]
  omega

/-- A number in places starts with a digit. -/
theorem exists_cons_of_padded (width_pos : 0 < width) (fits : value < 10 ^ width) :
    ∃ c rest, padded width value = c :: rest ∧ isDigit c = true := by
  cases written : padded width value with
  | nil =>
      have length := length_padded width_pos fits
      rw [written] at length
      exact absurd length width_pos.ne
  | cons c rest =>
      have c_mem : c ∈ padded width value := written ▸ List.mem_cons_self
      exact ⟨c, rest, rfl, isDigit_of_mem_padded c_mem⟩

theorem skipBlanks_padded (width_pos : 0 < width) (fits : value < 10 ^ width)
    (rest : List Char) : skipBlanks (padded width value ++ rest) = padded width value ++ rest := by
  obtain ⟨c, others, written, digit⟩ := exists_cons_of_padded width_pos fits
  rw [written, List.cons_append, skipBlanks_cons (isBlank_of_isDigit digit)]

theorem field?_padded (width_pos : 0 < width) (fits : value < 10 ^ width) (rest : List Char) :
    field? width (padded width value ++ rest) = some (value, rest) := by
  rw [field?, skipBlanks_padded width_pos fits, digits?_padded width_pos fits]

theorem separator?_cons {expected : Char} (solid : isBlank expected = false) (rest : List Char) :
    separator? expected (expected :: rest) = some rest := by
  rw [separator?, skipBlanks_cons solid]
  exact if_pos rfl

theorem year?_yearChars {year : Int} (nonneg : 0 ≤ year) (le : year ≤ 9999) (rest : List Char) :
    year? (yearChars year ++ rest) = some (year, rest) := by
  have fits : year.toNat < 10 ^ 4 := by omega
  obtain ⟨c, others, written, digit⟩ := exists_cons_of_padded (by decide) fits
  have read := digits?_padded (by decide) fits rest
  have skipped := skipBlanks_padded (by decide) fits rest
  rw [written, List.cons_append] at read skipped
  rw [yearChars, if_pos ⟨nonneg, le⟩, written, List.cons_append, year?, skipped]
  have not_minus : c ≠ '-' := by
    rintro rfl
    exact absurd digit (by decide)
  have not_plus : c ≠ '+' := by
    rintro rfl
    exact absurd digit (by decide)
  split
  case h_1 shape => exact absurd (List.cons.inj shape).1 not_minus
  case h_2 shape => exact absurd (List.cons.inj shape).1 not_plus
  case h_3 =>
    rw [read, Option.map_some]
    dsimp only
    rw [Int.toNat_of_nonneg nonneg]

/-! ## Fractions -/

theorem fraction?_padded (width_pos : 0 < width) (width_le : width ≤ 9)
    (fits : value < 10 ^ width) :
    fraction? ('.' :: padded width value ++ ['Z']) = some (value * 10 ^ (9 - width), ['Z']) := by
  have length := length_padded width_pos fits
  have all_digits : ∀ c ∈ padded width value, isDigit c = true := fun c c_mem =>
    isDigit_of_mem_padded c_mem
  have taken : (padded width value ++ ['Z']).takeWhile isDigit = padded width value := by
    rw [List.takeWhile_append_of_pos all_digits]
    exact List.append_nil _
  have dropped : (padded width value ++ ['Z']).dropWhile isDigit = ['Z'] := by
    rw [List.dropWhile_append_of_pos all_digits]
    rfl
  have kept : (padded width value).take 9 = padded width value :=
    List.take_of_length_le (length.trans_le width_le)
  have nonempty : ¬(padded width value).isEmpty = true := by
    rw [List.isEmpty_iff_length_eq_zero, length]
    exact width_pos.ne'
  rw [List.cons_append, fraction?, taken, dropped, kept, if_neg nonempty, number_padded, length]
  rfl

theorem fraction?_fractionChars {nanos : Nat} (small : nanos < 1000000000) :
    fraction? (fractionChars nanos ++ ['Z']) = some (nanos, ['Z']) := by
  unfold fractionChars
  split_ifs with zero millis micros
  · rw [zero]
    rfl
  · rw [fraction?_padded (by decide) (by decide) (by omega)]
    congr 2
    omega
  · rw [fraction?_padded (by decide) (by decide) (by omega)]
    congr 2
    omega
  · rw [fraction?_padded (by decide) (by decide) small]
    congr 2
    omega

/-! ## Points in time -/

/-- A point in time with a year of four places, outside a leap second. -/
structure Common (instant : Instant) : Prop where
  valid : instant.date.isValid = true
  year_nonneg : 0 ≤ instant.date.year
  year_le : instant.date.year ≤ 9999
  hour_lt : instant.hour < 24
  minute_lt : instant.minute < 60
  second_lt : instant.second < 60
  nanos_lt : instant.nanos < 1000000000

/-- The offset of universal time moves nothing. -/
theorem Common.toUniversal {instant : Instant} (common : instant.Common) :
    instant.toUniversal 0 = instant := by
  obtain ⟨date, hour, minute, second, nanos⟩ := instant
  have hour_lt : hour < 24 := common.hour_lt
  have minute_lt : minute < 60 := common.minute_lt
  have not_before : ¬(hour * 60 + minute - 0 : Int) < 0 := by omega
  have not_after : ¬1440 ≤ (hour * 60 + minute - 0 : Int) := by omega
  have of_day : ((hour * 60 + minute - 0 : Int) % 1440).toNat = hour * 60 + minute := by omega
  have hours : (hour * 60 + minute) / 60 = hour := by omega
  have minutes : (hour * 60 + minute) % 60 = minute := by omega
  simp only [Instant.toUniversal, if_neg not_before, if_neg not_after, of_day, hours, minutes]

theorem Common.isValid {instant : Instant} (common : instant.Common) :
    instant.isValid 0 = true := by
  simp [Instant.isValid, common.valid, common.hour_lt, common.minute_lt, common.second_lt.le]

theorem Common.yearInRange {instant : Instant} (common : instant.Common) :
    Date.yearInRange instant.date.year = true := by
  have year_nonneg := common.year_nonneg
  have year_le := common.year_le
  simp only [Date.yearInRange, Bool.and_eq_true, decide_eq_true_eq]
  omega

theorem Common.month_lt {instant : Instant} (common : instant.Common) :
    instant.date.month < 10 ^ 2 := by
  have valid := common.valid
  simp only [Date.isValid, Bool.and_eq_true, decide_eq_true_eq] at valid
  omega

theorem Common.day_lt {instant : Instant} (common : instant.Common) :
    instant.date.day < 10 ^ 2 := by
  have valid := common.valid
  simp only [Date.isValid, Bool.and_eq_true, decide_eq_true_eq] at valid
  have month_length : Date.daysInMonth instant.date.year instant.date.month ≤ 31 := by
    unfold Date.daysInMonth
    split_ifs <;> decide
  omega

private theorem bind_of_eq_some {Part Result : Type} {part : Option Part} {value : Part}
    (read : part = some value) (further : Part → Option Result) :
    (part >>= further) = further value := by
  rw [read]
  rfl

/-- All parts in a row, with the offset of universal time. -/
theorem ofChars?_of_parts {written afterYear beforeMonth afterMonth beforeDay afterDay beforeHour
      afterHour beforeMinute afterMinute beforeSecond afterSecond afterFraction : List Char}
    {instant : Instant}
    (year_read : year? written = some (instant.date.year, afterYear))
    (month_due : separator? '-' afterYear = some beforeMonth)
    (month_read : field? 2 beforeMonth = some (instant.date.month, afterMonth))
    (day_due : separator? '-' afterMonth = some beforeDay)
    (day_read : field? 2 beforeDay = some (instant.date.day, afterDay))
    (hour_due : afterDay = 'T' :: beforeHour)
    (hour_read : field? 2 beforeHour = some (instant.hour, afterHour))
    (minute_due : separator? ':' afterHour = some beforeMinute)
    (minute_read : field? 2 beforeMinute = some (instant.minute, afterMinute))
    (second_due : separator? ':' afterMinute = some beforeSecond)
    (second_read : field? 2 beforeSecond = some (instant.second, afterSecond))
    (fraction_read : fraction? afterSecond = some (instant.nanos, afterFraction))
    (offset_read : offset? (skipBlanks afterFraction) = some (0, [])) :
    ofChars? written =
      if instant.isValid 0 && Date.yearInRange (instant.toUniversal 0).date.year then
        some (instant.toUniversal 0) else none := by
  subst hour_due
  refine (bind_of_eq_some year_read _).trans ?_
  refine (bind_of_eq_some month_due _).trans ?_
  refine (bind_of_eq_some month_read _).trans ?_
  refine (bind_of_eq_some day_due _).trans ?_
  refine (bind_of_eq_some day_read _).trans ?_
  refine (bind_of_eq_some hour_read _).trans ?_
  refine (bind_of_eq_some minute_due _).trans ?_
  refine (bind_of_eq_some minute_read _).trans ?_
  refine (bind_of_eq_some second_due _).trans ?_
  refine (bind_of_eq_some second_read _).trans ?_
  refine (bind_of_eq_some fraction_read _).trans ?_
  exact bind_of_eq_some offset_read _

/-- The written form of a point in time is read as the point in time. -/
theorem Common.parse_text {instant : Instant} (common : instant.Common) :
    parse instant.text = some instant := by
  have two_pos : 0 < 2 := by decide
  have hour_fits : instant.hour < 10 ^ 2 := common.hour_lt.trans (by decide)
  have minute_fits : instant.minute < 10 ^ 2 := common.minute_lt.trans (by decide)
  have second_fits : instant.second < 10 ^ 2 := common.second_lt.trans (by decide)
  have hyphen (rest : List Char) := separator?_cons (show isBlank '-' = false from rfl) rest
  have colon (rest : List Char) := separator?_cons (show isBlank ':' = false from rfl) rest
  rw [parse, text, String.toList_ofList, chars]
  simp only [List.append_assoc, List.cons_append]
  rw [ofChars?_of_parts (year?_yearChars common.year_nonneg common.year_le _) (hyphen _)
    (field?_padded two_pos common.month_lt _) (hyphen _)
    (field?_padded two_pos common.day_lt _) rfl
    (field?_padded two_pos hour_fits _) (colon _)
    (field?_padded two_pos minute_fits _) (colon _)
    (field?_padded two_pos second_fits _) (fraction?_fractionChars common.nanos_lt) rfl]
  rw [common.toUniversal, common.isValid, common.yearInRange]
  rfl

end Instant
end Intake
