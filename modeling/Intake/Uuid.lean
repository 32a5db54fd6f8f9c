import Intake.Sha1
import Intake.Text.Hex

/-!
# Universally unique identifiers

An identifier is sixteen octets.  It is written in lower case in groups of 8, 4, 4, 4 and 12
hexadecimal digits joined by hyphens, and read in either case from that form, the same form in
braces or behind `urn:uuid:`, or from its thirty-two digits alone.  An identifier can be derived
from a name within the namespace of another one.
-/

namespace Intake

/-- An identifier of sixteen octets. -/
structure Uuid where
  /-- The octets, most significant first. -/
  octets : List UInt8
  /-- There are sixteen of them. -/
  length_eq : octets.length = 16
  deriving DecidableEq

namespace Uuid

/-- The identifier whose octets are all zero. -/
def zero : Uuid := ⟨List.replicate 16 0, by decide⟩

instance : Inhabited Uuid := ⟨zero⟩

/-- The two digits of every octet, in lower case. -/
def hexDigits : List UInt8 → List Char
  | [] => []
  | octet :: rest =>
      Nat.digitChar (octet.toNat / 16) :: Nat.digitChar (octet.toNat % 16) :: hexDigits rest

/-- Reads octets of two digits each. -/
def octets? : List Char → Option (List UInt8)
  | [] => some []
  | high :: low :: rest => do
      let high ← Hex.value? high
      let low ← Hex.value? low
      let rest ← octets? rest
      return UInt8.ofNat (high * 16 + low) :: rest
  | [_] => none

/-- The identifier of sixteen octets. -/
def ofOctets? (octets : List UInt8) : Option Uuid :=
  if length_eq : octets.length = 16 then some ⟨octets, length_eq⟩ else none

/-- Digits per group of the hyphenated form, but for the last group. -/
def groups : List Nat := [8, 4, 4, 4]

/-- Puts a hyphen after every group of digits. -/
def hyphenate : List Nat → List Char → List Char
  | [], digits => digits
  | group :: rest, digits => digits.take group ++ '-' :: hyphenate rest (digits.drop group)

/-- Takes out the hyphen after every group of digits; there must be one. -/
def unhyphenate? : List Nat → List Char → Option (List Char)
  | [], digits => some digits
  | group :: rest, written =>
      match written.drop group with
      | '-' :: tail => (unhyphenate? rest tail).map (written.take group ++ ·)
      | _ => none

/-- The written form: lower case, with hyphens. -/
def chars (identifier : Uuid) : List Char := hyphenate groups (hexDigits identifier.octets)

/-- The written form. -/
def text (identifier : Uuid) : String := String.ofList identifier.chars

instance : ToString Uuid := ⟨text⟩

/-- Reads thirty-two digits. -/
def ofDigits? (digits : List Char) : Option Uuid := octets? digits >>= ofOctets?

/-- Reads digits in hyphenated groups. -/
def ofHyphenated? (written : List Char) : Option Uuid := unhyphenate? groups written >>= ofDigits?

/-- The label in front of an identifier used as a name, recognised in either case. -/
def label : List Char := "urn:uuid:".toList

/-- Reads an identifier in any of its four forms, told apart by their length. -/
def ofChars? (written : List Char) : Option Uuid :=
  match written.length with
  | 32 => ofDigits? written
  | 36 => ofHyphenated? written
  | 38 =>
      if written.take 1 = ['{'] ∧ written.drop 37 = ['}'] then
        ofHyphenated? ((written.drop 1).take 36)
      else
        none
  | 45 =>
      if (written.take 9).map Char.toLower = label then ofHyphenated? (written.drop 9) else none
  | _ => none

/-- Reads an identifier. -/
def parse (written : String) : Option Uuid := ofChars? written.toList

/-- Marks octets as derived from a name (version five) and as of the common layout. -/
def mark (octets : List UInt8) : List UInt8 :=
  octets.mapIdx fun index octet =>
    if index = 6 then octet &&& 0x0F ||| 0x50
    else if index = 8 then octet &&& 0x3F ||| 0x80
    else octet

/-- The identifier derived from a name: the first sixteen octets of the digest of the namespace
and the name, marked as derived. -/
def derive (space : Uuid) (name : List UInt8) : Uuid :=
  ⟨mark ((Sha1.digest (space.octets ++ name)).take 16), by
    simp [mark, Sha1.length_digest]⟩

/-- Whether one identifier comes before another, or is the same: octets decide in order. -/
def le (left right : Uuid) : Bool := decide (left.octets ≤ right.octets)

end Uuid
end Intake
