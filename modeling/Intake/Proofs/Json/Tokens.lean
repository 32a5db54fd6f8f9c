import Intake.Proofs.Json.Numbers

/-!
# Tokens as they are written and read

What is left after a token is shorter than the text, so the measure of the lexer is never used up.
The tokens of a text are its first token and the tokens of what is left, and blanks are no part of
them.  A string or a number of the grammar is one token; of a string, and of a whole number that is
written, the token also tells what it denotes.
-/

namespace Intake
namespace Json

/-! ## Progress -/

/-- What is left after a token is no longer than what was left after its first byte. -/
theorem length_nextToken (byte : UInt8) (rest : List UInt8) :
    (nextToken byte rest).2.length ≤ rest.length := by
  rcases nextToken_spells (Prod.mk.eta (p := nextToken byte rest)).symm with
    ⟨-, none_left⟩ | ⟨lexeme, spelled, split⟩
  · rw [none_left]
    exact Nat.zero_le _
  · have lengths := congrArg List.length split
    have positive := List.length_pos_of_ne_nil spelled.ne_nil
    rw [List.length_cons, List.length_append] at lengths
    omega

/-- More measure than bytes makes no difference. -/
theorem tokensFrom_eq {measure : Nat} {text : List UInt8} (enough : text.length ≤ measure) :
    tokensFrom measure text = tokens text := by
  -- The tokens of a text use the length of the text, which may be any smaller measure.
  induction measure using Nat.strongRecOn generalizing text with
  | ind measure induction =>
      cases text with
      | nil => cases measure <;> rfl
      | cons byte rest =>
          cases measure with
          | zero => cases enough
          | succ measure =>
              have shorter : rest.length ≤ measure := Nat.le_of_succ_le_succ enough
              have after_shorter := length_nextToken byte rest
              have same {after : List UInt8} (bound : after.length ≤ rest.length) :
                  tokensFrom measure after = tokensFrom rest.length after :=
                (induction measure (Nat.lt_succ_self measure) (bound.trans shorter)).trans
                  (induction rest.length (Nat.lt_succ_of_le shorter) bound).symm
              rw [tokens, List.length_cons, tokensFrom, tokensFrom, same le_rfl]
              cases next : nextToken byte rest with
              | mk token after =>
                  rw [next] at after_shorter
                  dsimp only
                  rw [same after_shorter]

@[simp]
theorem tokens_nil : tokens [] = [] := rfl

theorem tokens_cons {byte : UInt8} (solid : isBlank byte = false) (rest : List UInt8) :
    tokens (byte :: rest) = (nextToken byte rest).1 :: tokens (nextToken byte rest).2 := by
  rw [tokens, List.length_cons, tokensFrom, if_neg (by simp [solid]),
    ← tokensFrom_eq (length_nextToken byte rest)]

theorem tokens_blank {blanks : List UInt8} (blank : Blank blanks) (rest : List UInt8) :
    tokens (blanks ++ rest) = tokens rest := by
  induction blanks with
  | nil => rfl
  | cons byte blanks induction =>
      rw [List.cons_append, tokens, List.length_cons, tokensFrom,
        if_pos (blank byte List.mem_cons_self)]
      exact induction fun other other_mem => blank other (List.mem_cons_of_mem byte other_mem)

theorem blank_of_tokens_eq_nil {text : List UInt8} (none_left : tokens text = []) : Blank text := by
  induction text with
  | nil => exact Blank.nil
  | cons byte rest induction =>
      cases kind : isBlank byte with
      | true =>
          have blank : Blank [byte] := fun other other_mem => List.mem_singleton.mp other_mem ▸ kind
          rw [← List.singleton_append, tokens_blank blank] at none_left
          exact blank_append.mpr ⟨blank, induction none_left⟩
      | false =>
          rw [tokens_cons kind] at none_left
          cases none_left

/-- A text whose first token is not faulty starts with it, perhaps behind blanks. -/
theorem exists_spells_of_tokens {text : List UInt8} {token : Token} {more : List Token}
    (read : tokens text = token :: more) (sound : ∀ flaw, token ≠ .faulty flaw) :
    ∃ before lexeme rest, Blank before ∧ token.Spells lexeme ∧
      text = before ++ (lexeme ++ rest) ∧ tokens rest = more := by
  induction text with
  | nil => cases read
  | cons byte rest induction =>
      cases kind : isBlank byte with
      | true =>
          have blank : Blank [byte] := fun other other_mem => List.mem_singleton.mp other_mem ▸ kind
          rw [← List.singleton_append, tokens_blank blank] at read
          obtain ⟨before, lexeme, after, before_blank, spelled, rfl, left⟩ := induction read
          exact ⟨byte :: before, lexeme, after, blank_append.mpr ⟨blank, before_blank⟩, spelled,
            rfl, left⟩
      | false =>
          rw [tokens_cons kind] at read
          obtain ⟨first, left⟩ := List.cons.inj read
          rcases nextToken_spells (Prod.mk.eta (p := nextToken byte rest)).symm with
            ⟨⟨flaw, faulty⟩, -⟩ | ⟨lexeme, spelled, split⟩
          · exact absurd (first.symm.trans faulty) (sound flaw)
          · rw [first] at spelled
            exact ⟨[], lexeme, _, Blank.nil, spelled, split, left⟩

/-! ## Strings and numbers -/

/-- A string is one token, which holds what the string denotes, if it denotes anything. -/
theorem IsString.tokens {text : List UInt8} (is_string : IsString text) :
    ∃ content, (∀ rest, Json.tokens (text ++ rest) = .quoted content :: Json.tokens rest) ∧
      ∀ value, content = .ok value ↔ SpellsString text value := by
  obtain ⟨inner, quotable, rfl⟩ := is_string
  obtain ⟨pieces, cut⟩ := quotable_iff.mp quotable
  refine ⟨content pieces, fun rest => ?_, fun value => cut.content_iff.trans ?_⟩
  · have next : nextToken 0x22 (inner ++ 0x22 :: rest) = (.quoted (content pieces), rest) := by
      have quote : Char.ofUInt8 0x22 = '"' := rfl
      simp only [nextToken, quote, cut.scanString]
    rw [List.cons_append, List.append_assoc, List.singleton_append, tokens_cons rfl, next]
  · constructor
    · exact fun denoted => ⟨inner, denoted, rfl⟩
    · rintro ⟨other, denoted, same⟩
      obtain rfl := List.append_cancel_right (List.cons.inj same).2
      exact denoted

theorem SpellsString.tokens {text : List UInt8} {value : String}
    (spelled : SpellsString text value) (rest : List UInt8) :
    Json.tokens (text ++ rest) = .quoted (.ok value) :: Json.tokens rest := by
  obtain ⟨content, read, denotes⟩ := spelled.isString.tokens
  rw [read, (denotes value).mpr spelled]

theorem nextToken_number {byte : UInt8} (numeric : byte = 0x2D ∨ isDigit byte = true)
    (rest : List UInt8) :
    nextToken byte rest =
      match scanNumber (byte :: rest) with
      | .ok (number, rest) => (.number number, rest)
      | .error defect => (.faulty (.number defect), []) := by
  have code : byte.toNat = 45 ∨ 48 ≤ byte.toNat ∧ byte.toNat ≤ 57 := by
    rcases numeric with rfl | digit
    · exact .inl rfl
    · simp only [isDigit, Bool.and_eq_true, decide_eq_true_eq, UInt8.le_iff_toNat_le] at digit
      exact .inr digit
  have no_match {c : Char} (other : c.toNat ≠ 45 ∧ (c.toNat < 48 ∨ 57 < c.toNat)) :
      Char.ofUInt8 byte ≠ c := by
    rintro rfl
    have same : (Char.ofUInt8 byte).toNat = byte.toNat := rfl
    omega
  unfold nextToken
  split
  case h_11 => exact if_pos numeric
  all_goals exact absurd ‹Char.ofUInt8 byte = _› (no_match (by decide))

theorem isBlank_number {byte : UInt8} (numeric : byte = 0x2D ∨ isDigit byte = true) :
    isBlank byte = false := by
  rcases numeric with rfl | digit
  · rfl
  · simp only [isDigit, Bool.and_eq_true, decide_eq_true_eq, UInt8.le_iff_toNat_le] at digit
    have no_match {blank : UInt8} (other : blank.toNat < 48) : (byte == blank) = false := by
      rw [beq_eq_false_iff_ne]
      rintro rfl
      exact absurd digit.1 (Nat.not_le.mpr other)
    simp only [isBlank, Bool.or_eq_false_iff]
    exact ⟨⟨⟨no_match (by decide), no_match (by decide)⟩, no_match (by decide)⟩,
      no_match (by decide)⟩

/-- A number is one token, if no number goes on behind it. -/
theorem IsNumber.tokens {text : List UInt8} (is_number : IsNumber text) :
    ∃ number, ∀ rest, Stops rest →
      Json.tokens (text ++ rest) = .number number :: Json.tokens rest := by
  obtain ⟨number, scanned⟩ := is_number.scanNumber
  refine ⟨number, fun rest stops => ?_⟩
  obtain ⟨byte, others, rfl, numeric⟩ := is_number.exists_cons
  have next : nextToken byte (others ++ rest) = (.number number, rest) := by
    have whole := scanned rest stops
    rw [List.cons_append] at whole
    rw [nextToken_number numeric, whole]
  rw [List.cons_append, tokens_cons (isBlank_number numeric), next]

/-! ## Written tokens -/

/-- A written whole number starts with its sign or a digit. -/
theorem exists_cons_of_wholeChars (value : Int) :
    ∃ byte bytes, utf8 (wholeChars value) = byte :: bytes ∧
      (byte = 0x2D ∨ isDigit byte = true) := by
  unfold wholeChars
  split
  case isTrue => exact ⟨0x2D, _, rfl, .inl rfl⟩
  case isFalse =>
    rw [utf8_toDigits]
    cases written : Numeral.decimal value.natAbs with
    | nil => exact absurd written (Numeral.decimal_ne_nil _)
    | cons first others =>
        have small := Numeral.decimal_lt_ten value.natAbs first (written ▸ List.mem_cons_self)
        exact ⟨digitByte first, others.map digitByte, rfl, .inr (isDigit_digitByte small)⟩

theorem tokens_whole (value : Int) {rest : List UInt8} (stops : Stops rest) :
    tokens (utf8 (wholeChars value) ++ rest) = .number (wholeText value) :: tokens rest := by
  obtain ⟨byte, bytes, written, numeric⟩ := exists_cons_of_wholeChars value
  have scanned := scanNumber_whole value stops
  rw [written, List.cons_append] at scanned ⊢
  have next : nextToken byte (bytes ++ rest) = (.number (wholeText value), rest) := by
    rw [nextToken_number numeric, scanned]
  rw [tokens_cons (isBlank_number numeric), next]

theorem tokens_null (rest : List UInt8) :
    tokens (utf8 ['n', 'u', 'l', 'l'] ++ rest) = .null :: tokens rest := tokens_cons rfl _

theorem tokens_true (rest : List UInt8) :
    tokens (utf8 ['t', 'r', 'u', 'e'] ++ rest) = .boolean true :: tokens rest := tokens_cons rfl _

theorem tokens_false (rest : List UInt8) :
    tokens (utf8 ['f', 'a', 'l', 's', 'e'] ++ rest) = .boolean false :: tokens rest :=
  tokens_cons rfl _

end Json
end Intake
