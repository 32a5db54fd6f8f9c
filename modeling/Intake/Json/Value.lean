import Intake.Decimal.Layout
import Intake.Overflow

/-!
# JSON values and their compact form

Whole numbers that fit sixty-four bits, signed or unsigned, are kept exactly; all other numbers are
doubles, kept by their bits.  `Json.chars` writes a value without blanks, members in the order in
which the object holds them, and escapes only what a string cannot hold: quotes, backslashes and
control characters.
-/

namespace Intake

/-- A whole number of sixty-four bits, signed or unsigned. -/
structure Whole where
  /-- The number. -/
  value : Int
  /-- It is not below every signed number. -/
  ge_least : Counter.least ≤ value
  /-- It is not above every unsigned number. -/
  lt_bound : value < UInt64.size
  deriving DecidableEq, Repr

namespace Whole

/-- A whole number that fits. -/
def ofInt? (value : Int) : Option Whole :=
  if fits : Counter.least ≤ value ∧ value < UInt64.size then some ⟨value, fits.1, fits.2⟩ else none

/-- An unsigned number. -/
def ofUnsigned (value : UInt64) : Whole :=
  ⟨value.toNat, by simp only [Counter.least]; omega, Int.ofNat_lt.mpr value.toNat_lt⟩

/-- A signed number. -/
def ofSigned (value : Int64) : Whole :=
  ⟨value.toInt, value.le_toInt, by
    have small := value.toInt_lt
    simp only [UInt64.size]
    omega⟩

end Whole

/-- A JSON value. -/
inductive Json where
  | null
  | boolean (value : Bool)
  | whole (value : Whole)
  | double (bits : UInt64)
  | text (value : String)
  | array (items : List Json)
  | object (members : List (String × Json))

namespace Json

instance : Inhabited Json := ⟨null⟩

/-- The character behind the backslash of a two-character escape. -/
def shortEscape? (c : Char) : Option Char :=
  if c = '"' then some '"'
  else if c = '\\' then some '\\'
  else if c = '\x08' then some 'b'
  else if c = '\x09' then some 't'
  else if c = '\x0a' then some 'n'
  else if c = '\x0c' then some 'f'
  else if c = '\x0d' then some 'r'
  else none

/-- A character as it stands in a string. -/
def escape (c : Char) : List Char :=
  match shortEscape? c with
  | some letter => ['\\', letter]
  | none =>
      if c.toNat < 32 then
        ['\\', 'u', '0', '0', Nat.digitChar (c.toNat / 16), Nat.digitChar (c.toNat % 16)]
      else
        [c]

/-- A string between quotes. -/
def quoted (value : String) : List Char := '"' :: value.toList.flatMap escape ++ ['"']

/-- A whole number in decimal. -/
def wholeChars (value : Int) : List Char :=
  if value < 0 then '-' :: Nat.toDigits 10 value.natAbs else Nat.toDigits 10 value.natAbs

/-- Pieces with a comma between them. -/
def separated : List (List Char) → List Char
  | [] => []
  | [piece] => piece
  | piece :: rest => piece ++ ',' :: separated rest

mutual

/-- The compact form of a value. -/
def chars : Json → List Char
  | null => ['n', 'u', 'l', 'l']
  | boolean true => ['t', 'r', 'u', 'e']
  | boolean false => ['f', 'a', 'l', 's', 'e']
  | whole value => wholeChars value.value
  | double bits => ((Binary64.ofBits bits).text .message).toList
  | text value => quoted value
  | array items => '[' :: separated (itemChars items) ++ [']']
  | object members => '{' :: separated (memberChars members) ++ ['}']

/-- The compact forms of the items of an array. -/
def itemChars : List Json → List (List Char)
  | [] => []
  | item :: rest => item.chars :: itemChars rest

/-- The compact forms of the members of an object. -/
def memberChars : List (String × Json) → List (List Char)
  | [] => []
  | (key, value) :: rest => (quoted key ++ ':' :: value.chars) :: memberChars rest

end

/-- The compact form of a value. -/
def compact (value : Json) : String := String.ofList value.chars

/-- The bytes of the compact form of a value. -/
def bytes (value : Json) : List UInt8 := value.compact.toUTF8.data.toList

/-- Adds a member to members in ascending order of their keys; of equal keys the last wins. -/
def insertMember (key : String) (value : Json) : List (String × Json) → List (String × Json)
  | [] => [(key, value)]
  | (other, old) :: rest =>
      if key = other then (key, value) :: rest
      else if key < other then (key, value) :: (other, old) :: rest
      else (other, old) :: insertMember key value rest

/-- A string, or null in its absence. -/
def optionalText : Option String → Json
  | some value => text value
  | none => null

/-- A signed number, or null in its absence. -/
def optionalSigned : Option Int64 → Json
  | some value => whole (.ofSigned value)
  | none => null

end Json
end Intake
