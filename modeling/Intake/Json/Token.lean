import Intake.Json.Number
import Intake.Text.Hex

/-!
# Tokens of JSON texts

A text is a list of bytes.  Its tokens are read from the left; the list of tokens ends with the
text or with the first faulty token.  A string or number can have the form of a token and still
denote nothing: that only matters to a reader who wants its value, so a token keeps both facts
apart.
-/

namespace Intake
namespace Json

/-! ## Strings -/

/-- A part of a string: a byte, or a code unit of sixteen bits written as an escape. -/
inductive Piece where
  | byte (value : UInt8)
  | unit (value : Nat)
  deriving DecidableEq, Repr

/-- The value of a byte that is a hexadecimal digit. -/
def hexValue? (byte : UInt8) : Option Nat := Hex.value? (Char.ofUInt8 byte)

/-- The code unit of four hexadecimal digits. -/
def codeUnit? (a b c d : UInt8) : Option Nat := do
  let a ← hexValue? a
  let b ← hexValue? b
  let c ← hexValue? c
  let d ← hexValue? d
  return ((a * 16 + b) * 16 + c) * 16 + d

/-- The byte that a two-character escape stands for. -/
def escapedByte? (letter : UInt8) : Option UInt8 :=
  match Char.ofUInt8 letter with
  | '"' => some 0x22
  | '\\' => some 0x5C
  | '/' => some 0x2F
  | 'b' => some 0x08
  | 'f' => some 0x0C
  | 'n' => some 0x0A
  | 'r' => some 0x0D
  | 't' => some 0x09
  | _ => none

/-- Reads the pieces of a string up to its closing quote, and the bytes after it. -/
def scanString : List UInt8 → List Piece × Except Defect (List UInt8)
  | [] => ([], .error .truncated)
  | byte :: rest =>
      if byte = 0x22 then ([], .ok rest)
      else if byte < 0x20 then ([], .error .malformed)
      else if byte ≠ 0x5C then
        let (pieces, after) := scanString rest
        (.byte byte :: pieces, after)
      else
        match rest with
        | [] => ([], .error .truncated)
        | letter :: rest =>
            if letter = 0x75 then
              match rest with
              | a :: b :: c :: d :: rest =>
                  match codeUnit? a b c d with
                  | some unit =>
                      let (pieces, after) := scanString rest
                      (.unit unit :: pieces, after)
                  | none => ([], .error .malformed)
              | _ => ([], .error .truncated)
            else
              match escapedByte? letter with
              | some value =>
                  let (pieces, after) := scanString rest
                  (.byte value :: pieces, after)
              | none => ([], .error .malformed)

/-- A code unit that must come first in a pair. -/
def isLeading (unit : Nat) : Bool := 0xD800 ≤ unit && unit ≤ 0xDBFF

/-- A code unit that must come second in a pair. -/
def isTrailing (unit : Nat) : Bool := 0xDC00 ≤ unit && unit ≤ 0xDFFF

/-- The bytes of a code point. -/
def codePointBytes (code : Nat) : List UInt8 := String.utf8EncodeChar (Char.ofNat code)

/-- The code point of a pair of code units. -/
def pairedCodePoint (leading trailing : Nat) : Nat :=
  0x10000 + (leading - 0xD800) * 0x400 + (trailing - 0xDC00)

/-- The bytes that the pieces of a string stand for; code units of pairs must be paired. -/
def contentBytes : List Piece → Except Defect (List UInt8)
  | [] => .ok []
  | .byte value :: rest => (contentBytes rest).map (value :: ·)
  | .unit leading :: rest =>
      if isLeading leading then
        match rest with
        | .unit trailing :: rest =>
            if isTrailing trailing then
              (contentBytes rest).map (codePointBytes (pairedCodePoint leading trailing) ++ ·)
            else .error .malformed
        | _ => .error .malformed
      else if isTrailing leading then .error .malformed
      else (contentBytes rest).map (codePointBytes leading ++ ·)

/-- The string that the pieces denote. -/
def content (pieces : List Piece) : Except Defect String := do
  let bytes ← contentBytes pieces
  match String.fromUTF8? ⟨bytes.toArray⟩ with
  | some value => .ok value
  | none => .error .malformed

/-- What is wrong first for a reader of a string that breaks off after these pieces: a code unit
that is not paired, or else the ending. -/
def firstDefect (ending : Defect) : List Piece → Defect
  | [] => ending
  | .byte _ :: rest => firstDefect ending rest
  | .unit leading :: rest =>
      if isLeading leading then
        match rest with
        | [] => ending
        | .unit trailing :: rest =>
            if isTrailing trailing then firstDefect ending rest else .malformed
        | _ => .malformed
      else if isTrailing leading then .malformed
      else firstDefect ending rest

/-! ## Numbers -/

/-- An ASCII digit. -/
def isDigit (byte : UInt8) : Bool := 0x30 ≤ byte && byte ≤ 0x39

/-- Splits off the digits at the front. -/
def splitDigits (bytes : List UInt8) : List Nat × List UInt8 :=
  ((bytes.takeWhile isDigit).map fun byte => byte.toNat - 48, bytes.dropWhile isDigit)

/-- Splits off at least one digit. -/
def someDigits (bytes : List UInt8) : Except Defect (List Nat × List UInt8) :=
  match bytes with
  | [] => .error .truncated
  | byte :: _ => if isDigit byte then .ok (splitDigits bytes) else .error .malformed

/-- Whole digits: a zero stands alone. -/
def scanWhole (bytes : List UInt8) : Except Defect (List Nat × List UInt8) := do
  let (digits, rest) ← someDigits bytes
  match digits with
  | 0 :: _ :: _ => .error .malformed
  | _ => .ok (digits, rest)

/-- A point and the digits after it, if there is a point. -/
def scanFraction (bytes : List UInt8) : Except Defect (List Nat × List UInt8) :=
  match bytes with
  | 0x2E :: rest => someDigits rest
  | _ => .ok ([], bytes)

/-- An exponent, if there is one. -/
def scanExponent (bytes : List UInt8) : Except Defect (Option (Bool × List Nat) × List UInt8) :=
  match bytes with
  | mark :: rest =>
      if mark = 0x65 ∨ mark = 0x45 then
        match rest with
        | 0x2B :: rest => (someDigits rest).map fun (digits, rest) => (some (false, digits), rest)
        | 0x2D :: rest => (someDigits rest).map fun (digits, rest) => (some (true, digits), rest)
        | rest => (someDigits rest).map fun (digits, rest) => (some (false, digits), rest)
      else .ok (none, bytes)
  | [] => .ok (none, bytes)

/-- Reads a number after its sign. -/
def scanUnsigned (negative : Bool) (bytes : List UInt8) :
    Except Defect (NumberText × List UInt8) := do
  let (integral, rest) ← scanWhole bytes
  let (fraction, rest) ← scanFraction rest
  let (exponent, rest) ← scanExponent rest
  return (⟨negative, integral, fraction, exponent⟩, rest)

/-- Reads a number. -/
def scanNumber (bytes : List UInt8) : Except Defect (NumberText × List UInt8) :=
  match bytes with
  | 0x2D :: rest => scanUnsigned true rest
  | _ => scanUnsigned false bytes

/-! ## Words -/

/-- Reads the rest of a word. -/
def scanWord : List Char → List UInt8 → Except Defect (List UInt8)
  | [], bytes => .ok bytes
  | _ :: _, [] => .error .truncated
  | expected :: word, byte :: rest =>
      if Char.ofUInt8 byte = expected then scanWord word rest else .error .malformed

/-! ## Tokens -/

/-- Why a token, or the place of a value, is faulty. -/
inductive Flaw where
  /-- A word that is none of the three. -/
  | word (defect : Defect)
  /-- A number that breaks off, for a reader of its value. -/
  | number (defect : Defect)
  /-- A string that breaks off: what is wrong for a reader of it, and for one who passes it. -/
  | quoted (read passed : Defect)
  /-- Nothing where something is due. -/
  | missing (defect : Defect)
  deriving DecidableEq, Repr

/-- What is wrong for a reader who passes over the flaw. -/
def Flaw.passed : Flaw → Defect
  | word defect => defect
  | number _ => .malformed
  | quoted _ defect => defect
  | missing defect => defect

/-- What is wrong for a reader of the value. -/
def Flaw.read : Flaw → Defect
  | word defect => defect
  | number defect => defect
  | quoted defect _ => defect
  | missing defect => defect

/-- A token. -/
inductive Token where
  | openArray
  | closeArray
  | openObject
  | closeObject
  | colon
  | comma
  | null
  | boolean (value : Bool)
  | number (value : NumberText)
  /-- A string, with what it denotes. -/
  | quoted (value : Except Defect String)
  | faulty (flaw : Flaw)

/-- A blank between tokens. -/
def isBlank (byte : UInt8) : Bool := byte == 0x20 || byte == 0x0A || byte == 0x09 || byte == 0x0D

/-- The first token of a text without leading blanks, and the bytes after it; a faulty token has
nothing after it. -/
def nextToken (byte : UInt8) (rest : List UInt8) : Token × List UInt8 :=
  match Char.ofUInt8 byte with
  | '[' => (.openArray, rest)
  | ']' => (.closeArray, rest)
  | '{' => (.openObject, rest)
  | '}' => (.closeObject, rest)
  | ':' => (.colon, rest)
  | ',' => (.comma, rest)
  | '"' =>
      match scanString rest with
      | (pieces, .ok rest) => (.quoted (content pieces), rest)
      | (pieces, .error defect) => (.faulty (.quoted (firstDefect defect pieces) defect), [])
  | 'n' => word ['u', 'l', 'l'] .null
  | 't' => word ['r', 'u', 'e'] (.boolean true)
  | 'f' => word ['a', 'l', 's', 'e'] (.boolean false)
  | _ =>
      if byte = 0x2D ∨ isDigit byte then
        match scanNumber (byte :: rest) with
        | .ok (number, rest) => (.number number, rest)
        | .error defect => (.faulty (.number defect), [])
      else
        (.faulty (.missing .malformed), [])
where
  /-- A token that is a word. -/
  word (letters : List Char) (token : Token) : Token × List UInt8 :=
    match scanWord letters rest with
    | .ok rest => (token, rest)
    | .error defect => (.faulty (.word defect), [])

/-- The bytes after a token; the measure of a text counts its bytes. -/
def tokensFrom : Nat → List UInt8 → List Token
  | 0, _ => []
  | _ + 1, [] => []
  | measure + 1, byte :: rest =>
      if isBlank byte then tokensFrom measure rest
      else
        let (token, rest) := nextToken byte rest
        token :: tokensFrom measure rest

/-- The tokens of a text. -/
def tokens (text : List UInt8) : List Token := tokensFrom text.length text

end Json
end Intake
