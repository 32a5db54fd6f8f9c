import Intake.Overflow
import Intake.Proofs.Json.Grammar
import Mathlib.Tactic

/-!
# Strings as they are read and written

The scanner cuts what stands between quotes into pieces: bytes, and code units of sixteen bits.
`Cut` ties a text to its pieces, so what the scanner takes is what the grammar allows, and what the
pieces are read as is what the text stands for.  A string is written character by character, with
escapes for quotes, backslashes and control characters, and what is written denotes the string.
-/

namespace Intake

/-! ## Bytes of characters -/

@[simp]
theorem utf8_nil : utf8 [] = [] := rfl

@[simp]
theorem utf8_append (chars others : List Char) :
    utf8 (chars ++ others) = utf8 chars ++ utf8 others :=
  List.flatMap_append

theorem utf8_cons (c : Char) (chars : List Char) :
    utf8 (c :: chars) = String.utf8EncodeChar c ++ utf8 chars := List.flatMap_cons

/-- A character of ASCII is one byte. -/
theorem utf8EncodeChar_of_lt {c : Char} (small : c.toNat < 128) :
    String.utf8EncodeChar c = [c.toUInt8] := by
  have bound : c.val.toNat ≤ 127 := Nat.le_of_lt_succ small
  unfold String.utf8EncodeChar
  dsimp only
  rw [if_pos bound]
  rfl

/-- All bytes of other characters are beyond ASCII. -/
theorem le_of_mem_utf8EncodeChar {c : Char} (large : 128 ≤ c.toNat) {byte : UInt8}
    (byte_mem : byte ∈ String.utf8EncodeChar c) : 128 ≤ byte.toNat := by
  have not_small : ¬c.val.toNat ≤ 127 := Nat.not_le.mpr large
  unfold String.utf8EncodeChar at byte_mem
  dsimp only at byte_mem
  rw [if_neg not_small] at byte_mem
  split_ifs at byte_mem <;>
    simp only [List.mem_cons, List.not_mem_nil, or_false] at byte_mem <;>
    rcases byte_mem with rfl | rfl | rfl | rfl <;>
    rw [UInt8.toNat_ofNat'] <;>
    omega

theorem utf8_ascii_cons {c : Char} (small : c.toNat < 128) (chars : List Char) :
    utf8 (c :: chars) = c.toUInt8 :: utf8 chars := by
  rw [utf8_cons, utf8EncodeChar_of_lt small]
  rfl

/-- Bytes are those of one string at most. -/
theorem fromUTF8?_eq_some_iff {bytes : List UInt8} {value : String} :
    String.fromUTF8? ⟨bytes.toArray⟩ = some value ↔ bytes = utf8 value.toList := by
  have encoded : value.toByteArray = ⟨(utf8 value.toList).toArray⟩ := by
    rw [← String.ofList_toList (s := value), String.toByteArray_ofList, String.toList_ofList]
    simp [utf8, List.utf8Encode, ByteArray.ext_iff]
  unfold String.fromUTF8?
  constructor
  · intro read
    split at read
    case isTrue =>
      obtain rfl := Option.some.inj read
      injection encoded with same
      injection same
    case isFalse => cases read
  · rintro rfl
    have valid := value.isValidUTF8
    rw [encoded] at valid
    rw [dif_pos valid]
    exact congrArg some (String.toByteArray_inj.mp encoded.symm)

namespace Json

theorem bytes_eq (value : Json) : value.bytes = utf8 value.chars := by
  simp [bytes, compact, utf8, List.utf8Encode]

/-! ## Escapes -/

theorem hexValue?_eq_some_iff {byte : UInt8} {value : Nat} :
    hexValue? byte = some value ↔ HexDigit byte value := by
  have read : ∀ value < 16, hexValue? (Nat.digitChar value).toUInt8 = some value ∧
      hexValue? (Nat.digitChar value).toUpper.toUInt8 = some value := by decide
  have written : ∀ code < 256, ∀ value ∈ hexValue? (UInt8.ofNat code), value < 16 ∧
      (UInt8.ofNat code = (Nat.digitChar value).toUInt8 ∨
        UInt8.ofNat code = (Nat.digitChar value).toUpper.toUInt8) := by decide +kernel
  constructor
  · intro known
    have own := written byte.toNat byte.toNat_lt
    rw [UInt8.ofNat_toNat] at own
    exact own value known
  · rintro ⟨small, rfl | rfl⟩
    · exact (read value small).1
    · exact (read value small).2

theorem codeUnit?_eq_some_iff {a b c d : UInt8} {unit : Nat} :
    codeUnit? a b c d = some unit ↔ CodeUnit a b c d unit := by
  simp only [CodeUnit, ← hexValue?_eq_some_iff, codeUnit?, Option.bind_eq_bind,
    Option.bind_eq_some_iff, Option.pure_def, Option.some.injEq]
  constructor
  · rintro ⟨w, first, x, second, y, third, z, fourth, rfl⟩
    exact ⟨w, x, y, z, first, second, third, fourth, by omega⟩
  · rintro ⟨w, x, y, z, first, second, third, fourth, rfl⟩
    exact ⟨w, first, x, second, y, third, z, fourth, by omega⟩

theorem CodeUnit.lt {a b c d : UInt8} {unit : Nat} (digits : CodeUnit a b c d unit) :
    unit < 0x10000 := by
  obtain ⟨w, x, y, z, ⟨first, -⟩, ⟨second, -⟩, ⟨third, -⟩, ⟨fourth, -⟩, rfl⟩ := digits
  omega

theorem escapedByte?_eq_some_iff {letter value : UInt8} :
    escapedByte? letter = some value ↔ (letter, value) ∈ escapes := by
  have read : escapes.map (fun entry => escapedByte? entry.1) =
      escapes.map fun entry => some entry.2 := by rfl
  have listed : ∀ code < 256, (escapedByte? (UInt8.ofNat code)).all
      fun value => (UInt8.ofNat code, value) ∈ escapes := by decide +kernel
  refine ⟨fun known => ?_, List.map_inj_left.mp read (letter, value)⟩
  have own := listed letter.toNat letter.toNat_lt
  rw [UInt8.ofNat_toNat, known] at own
  exact of_decide_eq_true own

/-! ## Strings -/

/-- What stands between quotes, cut into the pieces that a scanner takes it for. -/
inductive Cut : List UInt8 → List Piece → Prop where
  | nil : Cut [] []
  | byte {byte : UInt8} {rest : List UInt8} {pieces : List Piece} (plain : Plain byte)
      (further : Cut rest pieces) : Cut (byte :: rest) (.byte byte :: pieces)
  | escape {letter value : UInt8} {rest : List UInt8} {pieces : List Piece}
      (escaped : (letter, value) ∈ escapes) (further : Cut rest pieces) :
      Cut (0x5C :: letter :: rest) (.byte value :: pieces)
  | unit {a b c d : UInt8} {unit : Nat} {rest : List UInt8} {pieces : List Piece}
      (digits : CodeUnit a b c d unit) (further : Cut rest pieces) :
      Cut (0x5C :: 0x75 :: a :: b :: c :: d :: rest) (.unit unit :: pieces)

theorem quotable_iff {inner : List UInt8} : Quotable inner ↔ ∃ pieces, Cut inner pieces := by
  constructor
  · intro quotable
    induction quotable with
    | nil => exact ⟨[], .nil⟩
    | byte plain _ induction => exact induction.imp' _ fun _ => .byte plain
    | escape escaped _ induction => exact induction.imp' _ fun _ => .escape escaped
    | unit digits _ induction => exact induction.imp' _ fun _ => .unit digits
  · rintro ⟨pieces, cut⟩
    induction cut with
    | nil => exact .nil
    | byte plain _ further => exact .byte plain further
    | escape escaped _ further => exact .escape escaped further
    | unit digits _ further => exact .unit digits further

/-- What is cut into pieces is scanned as these pieces, up to the quote behind it. -/
theorem Cut.scanString {inner : List UInt8} {pieces : List Piece} (cut : Cut inner pieces)
    (rest : List UInt8) : Json.scanString (inner ++ 0x22 :: rest) = (pieces, .ok rest) := by
  induction cut with
  | nil =>
      rw [List.nil_append, Json.scanString.eq_def]
      rfl
  | byte plain _ induction =>
      rw [List.cons_append, Json.scanString.eq_def]
      simp [plain.not_quote, plain.not_control, plain.not_backslash, induction]
  | @escape letter value inner pieces escaped _ induction =>
      have not_unit : letter ≠ 0x75 := by
        rintro rfl
        simp [escapes] at escaped
      rw [List.cons_append, List.cons_append, Json.scanString.eq_def]
      simp [not_unit, escapedByte?_eq_some_iff.mpr escaped, induction]
  | @unit a b c d unit inner pieces digits _ induction =>
      change Json.scanString (0x5C :: 0x75 :: a :: b :: c :: d :: (inner ++ 0x22 :: rest)) = _
      rw [Json.scanString.eq_def]
      simp [codeUnit?_eq_some_iff.mpr digits, induction]

/-- What is scanned up to a quote is cut into the pieces that were scanned. -/
theorem exists_cut_of_scanString {text after : List UInt8}
    (scanned : (scanString text).2 = .ok after) :
    ∃ inner, Cut inner (scanString text).1 ∧ text = inner ++ 0x22 :: after := by
  fun_induction scanString text with
  | case1 | case3 | case5 | case7 | case8 | case10 => cases scanned
  | case2 rest =>
      obtain rfl := Except.ok.inj scanned
      exact ⟨[], .nil, rfl⟩
  | case4 byte rest not_quote not_control not_backslash _ _ scan induction =>
      rw [scan] at induction
      obtain ⟨inner, cut, rfl⟩ := induction scanned
      exact ⟨byte :: inner, .byte ⟨not_quote, not_control, not_backslash⟩ cut, rfl⟩
  | case6 slash _ _ backslash a b c d rest unit unit_scanned _ _ scan induction =>
      rw [scan] at induction
      obtain ⟨inner, cut, rfl⟩ := induction scanned
      obtain rfl := not_not.mp backslash
      exact ⟨_, .unit (codeUnit?_eq_some_iff.mp unit_scanned) cut, rfl⟩
  | case9 slash _ _ backslash letter rest _ value escaped _ _ scan induction =>
      rw [scan] at induction
      obtain ⟨inner, cut, rfl⟩ := induction scanned
      obtain rfl := not_not.mp backslash
      exact ⟨_, .escape (escapedByte?_eq_some_iff.mp escaped) cut, rfl⟩

/-! ## What strings denote -/

theorem isLeading_iff {unit : Nat} : isLeading unit = true ↔ 0xD800 ≤ unit ∧ unit ≤ 0xDBFF := by
  simp [isLeading]

theorem isTrailing_iff {unit : Nat} : isTrailing unit = true ↔ 0xDC00 ≤ unit ∧ unit ≤ 0xDFFF := by
  simp [isTrailing]

/-- A character that one code unit writes needs no pair. -/
theorem contentBytes_character (value : Char) (pieces : List Piece) :
    contentBytes (.unit value.toNat :: pieces) =
      (contentBytes pieces).map (String.utf8EncodeChar value ++ ·) := by
  have valid : value.toNat < 0xD800 ∨ 0xDFFF < value.toNat ∧ value.toNat < 0x110000 := value.valid
  have not_leading : ¬isLeading value.toNat = true := by
    rw [isLeading_iff]
    omega
  have not_trailing : ¬isTrailing value.toNat = true := by
    rw [isTrailing_iff]
    omega
  rw [contentBytes.eq_def]
  simp [not_leading, not_trailing, codePointBytes, Char.ofNat_toNat]

/-- A character beyond sixteen bits is read from its two code units. -/
theorem contentBytes_pair {value : Char} (beyond : 0x10000 ≤ value.toNat) (pieces : List Piece) :
    contentBytes (.unit (0xD800 + (value.toNat - 0x10000) / 0x400) ::
        .unit (0xDC00 + (value.toNat - 0x10000) % 0x400) :: pieces) =
      (contentBytes pieces).map (String.utf8EncodeChar value ++ ·) := by
  have valid : value.toNat < 0xD800 ∨ 0xDFFF < value.toNat ∧ value.toNat < 0x110000 := value.valid
  have leading : isLeading (0xD800 + (value.toNat - 0x10000) / 0x400) = true := by
    rw [isLeading_iff]
    omega
  have trailing : isTrailing (0xDC00 + (value.toNat - 0x10000) % 0x400) = true := by
    rw [isTrailing_iff]
    omega
  have whole : pairedCodePoint (0xD800 + (value.toNat - 0x10000) / 0x400)
      (0xDC00 + (value.toNat - 0x10000) % 0x400) = value.toNat := by
    unfold pairedCodePoint
    omega
  rw [contentBytes.eq_def]
  simp [leading, trailing, whole, codePointBytes, Char.ofNat_toNat]

/-- The pieces of what stands for some bytes are read as these bytes. -/
theorem StandsFor.exists_cut {inner bytes : List UInt8} (denoted : StandsFor inner bytes) :
    ∃ pieces, Cut inner pieces ∧ contentBytes pieces = .ok bytes := by
  induction denoted with
  | nil => exact ⟨[], .nil, rfl⟩
  | byte plain _ induction =>
      obtain ⟨pieces, cut, read⟩ := induction
      exact ⟨_, .byte plain cut, by rw [contentBytes, read]; rfl⟩
  | escape escaped _ induction =>
      obtain ⟨pieces, cut, read⟩ := induction
      exact ⟨_, .escape escaped cut, by rw [contentBytes, read]; rfl⟩
  | character digits _ induction =>
      obtain ⟨pieces, cut, read⟩ := induction
      exact ⟨_, .unit digits cut, by rw [contentBytes_character, read]; rfl⟩
  | pair beyond leading trailing _ induction =>
      obtain ⟨pieces, cut, read⟩ := induction
      exact ⟨_, .unit leading (.unit trailing cut), by rw [contentBytes_pair beyond, read]; rfl⟩

/-- Code points other than surrogates are those of characters. -/
theorem exists_char {code : Nat} (valid : code.isValidChar) :
    ∃ value : Char, value.toNat = code ∧ codePointBytes code = String.utf8EncodeChar value := by
  refine ⟨Char.ofNat code, ?_, rfl⟩
  rw [Char.ofNat, dif_pos valid]
  rfl

/-- What is read as some bytes stands for them. -/
theorem Cut.standsFor {inner bytes : List UInt8} {pieces : List Piece} (cut : Cut inner pieces)
    (read : contentBytes pieces = .ok bytes) : StandsFor inner bytes := by
  fun_induction contentBytes pieces generalizing inner bytes with
  | case1 =>
      cases cut
      obtain rfl := Except.ok.inj read
      exact .nil
  | case2 value rest induction =>
      obtain ⟨others, rest_read, rfl⟩ := map_eq_ok.mp read
      cases cut with
      | byte plain further => exact .byte plain (induction further rest_read)
      | escape escaped further => exact .escape escaped (induction further rest_read)
  | case3 lead is_leading trail rest is_trailing induction =>
      obtain ⟨others, rest_read, rfl⟩ := map_eq_ok.mp read
      rw [isLeading_iff] at is_leading
      rw [isTrailing_iff] at is_trailing
      have code : pairedCodePoint lead trail =
          0x10000 + (lead - 0xD800) * 0x400 + (trail - 0xDC00) := rfl
      obtain ⟨value, same, written⟩ := exists_char (show (pairedCodePoint lead trail).isValidChar by
        rw [code]
        exact .inr (by omega))
      have lead_eq : lead = 0xD800 + (value.toNat - 0x10000) / 0x400 := by omega
      have trail_eq : trail = 0xDC00 + (value.toNat - 0x10000) % 0x400 := by omega
      cases cut with
      | unit leading cut =>
          cases cut with
          | unit trailing cut =>
              rw [lead_eq] at leading
              rw [trail_eq] at trailing
              rw [written]
              exact .pair (by omega) leading trailing (induction cut rest_read)
  | case7 unit rest not_leading not_trailing induction =>
      obtain ⟨others, rest_read, rfl⟩ := map_eq_ok.mp read
      rw [isLeading_iff] at not_leading
      rw [isTrailing_iff] at not_trailing
      cases cut with
      | unit digits cut =>
          have small := digits.lt
          obtain ⟨value, rfl, written⟩ := exists_char (show unit.isValidChar by
            unfold Nat.isValidChar
            omega)
          rw [written]
          exact .character digits (induction cut rest_read)
  | case4 | case5 | case6 => cases read

theorem content_eq_ok_iff {pieces : List Piece} {value : String} :
    content pieces = .ok value ↔ contentBytes pieces = .ok (utf8 value.toList) := by
  constructor
  · intro read
    obtain ⟨bytes, bytes_read, read⟩ := bind_eq_ok.mp read
    split at read
    case h_1 found =>
      obtain rfl := Except.ok.inj read
      rw [bytes_read, fromUTF8?_eq_some_iff.mp found]
    case h_2 => cases read
  · intro bytes_read
    refine bind_eq_ok.mpr ⟨_, bytes_read, ?_⟩
    rw [fromUTF8?_eq_some_iff.mpr rfl]

/-- What is cut into pieces denotes a string exactly if the pieces are read as the string. -/
theorem Cut.content_iff {inner : List UInt8} {pieces : List Piece} (cut : Cut inner pieces)
    {value : String} : content pieces = .ok value ↔ StandsFor inner (utf8 value.toList) := by
  rw [content_eq_ok_iff]
  refine ⟨cut.standsFor, fun denoted => ?_⟩
  obtain ⟨others, other_cut, read⟩ := denoted.exists_cut
  obtain ⟨rfl, -⟩ := Prod.mk.inj ((cut.scanString []).symm.trans (other_cut.scanString []))
  exact read

theorem SpellsString.isString {text : List UInt8} {value : String}
    (spelled : SpellsString text value) : IsString text := by
  obtain ⟨inner, denoted, rfl⟩ := spelled
  exact ⟨inner, quotable_iff.mpr (denoted.exists_cut.imp fun _ => And.left), rfl⟩

/-! ## Strings that are written -/

theorem StandsFor.bytes_append {bytes rest others : List UInt8}
    (plain : ∀ byte ∈ bytes, Plain byte) (further : StandsFor rest others) :
    StandsFor (bytes ++ rest) (bytes ++ others) := by
  induction bytes with
  | nil => exact further
  | cons byte bytes induction =>
      obtain ⟨first, others_plain⟩ := List.forall_mem_cons.mp plain
      exact .byte first (induction others_plain)

theorem shortEscape?_eq_some {c letter : Char} (short : shortEscape? c = some letter) :
    c.toNat < 128 ∧ letter.toNat < 128 ∧ (letter.toUInt8, c.toUInt8) ∈ escapes := by
  unfold shortEscape? at short
  split_ifs at short <;>
    (subst_vars; obtain rfl := Option.some.inj short; decide)

theorem shortEscape?_eq_none {c : Char} (short : shortEscape? c = none) : c ≠ '"' ∧ c ≠ '\\' := by
  constructor <;> (rintro rfl; exact absurd short (by decide))

theorem digitChar_lt {value : Nat} (small : value < 16) : (Nat.digitChar value).toNat < 128 := by
  have all : ∀ value < 16, (Nat.digitChar value).toNat < 128 := by decide
  exact all value small

/-- A number below 256 is written as a code unit with two zeros in front. -/
theorem codeUnit_of_lt {code : Nat} (small : code < 256) :
    CodeUnit 0x30 0x30 (Nat.digitChar (code / 16)).toUInt8 (Nat.digitChar (code % 16)).toUInt8
      code := by
  have zero : HexDigit 0x30 0 := ⟨by decide, .inl rfl⟩
  refine ⟨0, 0, code / 16, code % 16, zero, zero, ⟨?_, .inl rfl⟩, ⟨?_, .inl rfl⟩, ?_⟩ <;> omega

/-- A character that needs no escape is written in bytes that stand for themselves. -/
theorem plain_of_mem_utf8EncodeChar {c : Char} (short : shortEscape? c = none)
    (printable : ¬c.toNat < 32) {byte : UInt8} (byte_mem : byte ∈ String.utf8EncodeChar c) :
    Plain byte := by
  obtain ⟨not_quote, not_backslash⟩ := shortEscape?_eq_none short
  by_cases small : c.toNat < 128
  · rw [utf8EncodeChar_of_lt small, List.mem_singleton] at byte_mem
    have value : byte.toNat = c.toNat := by
      rw [byte_mem]
      exact Nat.mod_eq_of_lt (show c.toNat < 256 by omega)
    constructor
    · exact fun quote => not_quote (Char.toNat_inj.mp (value.symm.trans (congrArg _ quote)))
    · exact fun control => printable (value ▸ UInt8.lt_iff_toNat_lt.mp control)
    · exact fun slash => not_backslash (Char.toNat_inj.mp (value.symm.trans (congrArg _ slash)))
  · have large := le_of_mem_utf8EncodeChar (Nat.not_lt.mp small) byte_mem
    constructor
    · exact fun quote => absurd (quote ▸ large) (by decide)
    · exact fun control => absurd (Nat.lt_of_le_of_lt large control) (by decide)
    · exact fun backslash => absurd (backslash ▸ large) (by decide)

/-- A character as it is written stands for its bytes. -/
theorem StandsFor.escape_append {rest bytes : List UInt8} (further : StandsFor rest bytes)
    (c : Char) : StandsFor (utf8 (Json.escape c) ++ rest) (String.utf8EncodeChar c ++ bytes) := by
  unfold Json.escape
  cases short : shortEscape? c with
  | some letter =>
      obtain ⟨small, letter_small, escaped⟩ := shortEscape?_eq_some short
      dsimp only
      rw [utf8_ascii_cons (by decide), utf8_ascii_cons letter_small, utf8_nil,
        utf8EncodeChar_of_lt small]
      exact .escape escaped further
  | none =>
      dsimp only
      split
      case isTrue control =>
        -- The code unit of a control character is below 256, so its first two digits are zeros.
        have high_small := digitChar_lt (show c.toNat / 16 < 16 by omega)
        have low_small := digitChar_lt (show c.toNat % 16 < 16 by omega)
        rw [utf8_ascii_cons (by decide), utf8_ascii_cons (by decide), utf8_ascii_cons (by decide),
          utf8_ascii_cons (by decide), utf8_ascii_cons high_small, utf8_ascii_cons low_small,
          utf8_nil]
        exact .character (codeUnit_of_lt (by omega)) further
      case isFalse printable =>
        rw [utf8_cons, utf8_nil, List.append_nil]
        exact .bytes_append
          (fun byte byte_mem => plain_of_mem_utf8EncodeChar short printable byte_mem) further

theorem standsFor_escaped (chars : List Char) :
    StandsFor (utf8 (chars.flatMap escape)) (utf8 chars) := by
  induction chars with
  | nil => exact .nil
  | cons c chars induction =>
      rw [List.flatMap_cons, utf8_append, utf8_cons]
      exact induction.escape_append c

/-- The written form of a string denotes the string. -/
theorem spellsString_quoted (value : String) : SpellsString (utf8 (quoted value)) value := by
  refine ⟨utf8 (value.toList.flatMap escape), standsFor_escaped value.toList, ?_⟩
  rw [quoted, List.cons_append, utf8_ascii_cons (by decide), utf8_append]
  rfl

end Json
end Intake
