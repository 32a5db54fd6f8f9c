import Intake.Json.Token

/-!
# The grammar of JSON texts

The grammar is stated over bytes and independently of any scanner.  Only ASCII has a meaning of its
own; between quotes every other byte stands for itself.  Of strings the grammar also says what they stand
for, whatever escapes they are written with.  Blanks may stand around every value and every key, so
the grammar of values leaves them out and `Padded` adds them.  An object is described
together with its members, as an `ObjectText`, since what is said of objects is said of their
members in another order or among others.
-/

namespace Intake

/-- The bytes of characters. -/
def utf8 (chars : List Char) : List UInt8 := chars.flatMap String.utf8EncodeChar

namespace Json

/-! ## Blanks and commas -/

/-- Nothing but blanks. -/
def Blank (text : List UInt8) : Prop := ∀ byte ∈ text, isBlank byte = true

/-- A text in the middle of blanks. -/
def Padded (inner text : List UInt8) : Prop :=
  ∃ before after, Blank before ∧ Blank after ∧ text = before ++ inner ++ after

/-- Pieces as they are spelled, with a comma between any two.  Where there is no piece there may be
blanks. -/
inductive Listed {Piece : Type} (Spells : Piece → List UInt8 → Prop) :
    List Piece → List UInt8 → Prop where
  | empty {blanks : List UInt8} (blank : Blank blanks) : Listed Spells [] blanks
  | last {piece : Piece} {text : List UInt8} (spelled : Spells piece text) :
      Listed Spells [piece] text
  | more {piece next : Piece} {others : List Piece} {text rest : List UInt8}
      (spelled : Spells piece text) (further : Listed Spells (next :: others) rest) :
      Listed Spells (piece :: next :: others) (text ++ 0x2C :: rest)

/-! ## Strings -/

/-- A hexadecimal digit in either case, and its value. -/
def HexDigit (byte : UInt8) (value : Nat) : Prop :=
  value < 16 ∧
    (byte = (Nat.digitChar value).toUInt8 ∨ byte = (Nat.digitChar value).toUpper.toUInt8)

/-- Four hexadecimal digits, and the code unit that they write. -/
def CodeUnit (a b c d : UInt8) (unit : Nat) : Prop :=
  ∃ w x y z, HexDigit a w ∧ HexDigit b x ∧ HexDigit c y ∧ HexDigit d z ∧
    unit = w * 0x1000 + x * 0x100 + y * 0x10 + z

/-- The letters that may follow a backslash by themselves, and the bytes that they stand for. -/
def escapes : List (UInt8 × UInt8) :=
  [(0x22, 0x22), (0x5C, 0x5C), (0x2F, 0x2F), (0x62, 0x08), (0x66, 0x0C), (0x6E, 0x0A),
    (0x72, 0x0D), (0x74, 0x09)]

/-- A byte that stands for itself between quotes. -/
structure Plain (byte : UInt8) : Prop where
  not_quote : byte ≠ 0x22
  not_control : ¬byte < 0x20
  not_backslash : byte ≠ 0x5C

/-- What may stand between quotes: bytes for themselves, escapes of one letter, and code units in
four hexadecimal digits. -/
inductive Quotable : List UInt8 → Prop where
  | nil : Quotable []
  | byte {byte : UInt8} {rest : List UInt8} (plain : Plain byte) (further : Quotable rest) :
      Quotable (byte :: rest)
  | escape {letter value : UInt8} {rest : List UInt8} (escaped : (letter, value) ∈ escapes)
      (further : Quotable rest) : Quotable (0x5C :: letter :: rest)
  | unit {a b c d : UInt8} {unit : Nat} {rest : List UInt8} (digits : CodeUnit a b c d unit)
      (further : Quotable rest) : Quotable (0x5C :: 0x75 :: a :: b :: c :: d :: rest)

/-- A string with its quotes. -/
def IsString (text : List UInt8) : Prop :=
  ∃ inner, Quotable inner ∧ text = 0x22 :: (inner ++ [0x22])

/-- What stands between quotes, and the bytes that it stands for.  An escape in hexadecimal digits
writes a character by its code units, of which a character beyond sixteen bits has two. -/
inductive StandsFor : List UInt8 → List UInt8 → Prop where
  | nil : StandsFor [] []
  | byte {byte : UInt8} {rest bytes : List UInt8} (plain : Plain byte)
      (further : StandsFor rest bytes) : StandsFor (byte :: rest) (byte :: bytes)
  | escape {letter value : UInt8} {rest bytes : List UInt8} (escaped : (letter, value) ∈ escapes)
      (further : StandsFor rest bytes) : StandsFor (0x5C :: letter :: rest) (value :: bytes)
  | character {a b c d : UInt8} {value : Char} {rest bytes : List UInt8}
      (digits : CodeUnit a b c d value.toNat) (further : StandsFor rest bytes) :
      StandsFor (0x5C :: 0x75 :: a :: b :: c :: d :: rest) (String.utf8EncodeChar value ++ bytes)
  | pair {a b c d e f g h : UInt8} {value : Char} {rest bytes : List UInt8}
      (beyond : 0x10000 ≤ value.toNat)
      (leading : CodeUnit a b c d (0xD800 + (value.toNat - 0x10000) / 0x400))
      (trailing : CodeUnit e f g h (0xDC00 + (value.toNat - 0x10000) % 0x400))
      (further : StandsFor rest bytes) :
      StandsFor
        (0x5C :: 0x75 :: a :: b :: c :: d :: 0x5C :: 0x75 :: e :: f :: g :: h :: rest)
        (String.utf8EncodeChar value ++ bytes)

/-- The text of a string that denotes this one, however it is escaped. -/
def SpellsString (text : List UInt8) (value : String) : Prop :=
  ∃ inner, StandsFor inner (utf8 value.toList) ∧ text = 0x22 :: (inner ++ [0x22])

/-! ## Numbers -/

/-- One or more digits. -/
def IsDigits (text : List UInt8) : Prop := text ≠ [] ∧ ∀ byte ∈ text, isDigit byte = true

/-- Digits before the point: a zero stands alone. -/
def IsWhole (text : List UInt8) : Prop :=
  IsDigits text ∧ (text.head? = some 0x30 → text = [0x30])

/-- A point and digits, or nothing. -/
def IsFraction (text : List UInt8) : Prop :=
  text = [] ∨ ∃ digits, IsDigits digits ∧ text = 0x2E :: digits

/-- A mark, perhaps a sign, and digits, or nothing. -/
def IsExponent (text : List UInt8) : Prop :=
  text = [] ∨ ∃ mark sign digits, (mark = 0x65 ∨ mark = 0x45) ∧
    (sign = [] ∨ sign = [0x2B] ∨ sign = [0x2D]) ∧ IsDigits digits ∧
    text = mark :: (sign ++ digits)

/-- A number. -/
def IsNumber (text : List UInt8) : Prop :=
  ∃ sign whole fraction exponent, (sign = [] ∨ sign = [0x2D]) ∧ IsWhole whole ∧
    IsFraction fraction ∧ IsExponent exponent ∧ text = sign ++ (whole ++ (fraction ++ exponent))

/-! ## Values -/

/-- A member of an object, by the texts of its key and of its value. -/
structure Member where
  key : List UInt8
  value : List UInt8

/-- A member with its colon, and blanks around key and value. -/
def Member.Spells (member : Member) (text : List UInt8) : Prop :=
  ∃ key value, Padded member.key key ∧ Padded member.value value ∧ text = key ++ 0x3A :: value

/-- The text of null. -/
def nullText : List UInt8 := [0x6E, 0x75, 0x6C, 0x6C]

/-- The text of a truth value. -/
def flagText : Bool → List UInt8
  | true => [0x74, 0x72, 0x75, 0x65]
  | false => [0x66, 0x61, 0x6C, 0x73, 0x65]

/-- The text of a value, without blanks around it. -/
inductive Grammatical : List UInt8 → Prop where
  | null : Grammatical nullText
  | flag (value : Bool) : Grammatical (flagText value)
  | number {text : List UInt8} (number : IsNumber text) : Grammatical text
  | string {text : List UInt8} (string : IsString text) : Grammatical text
  | array {items : List (List UInt8)} {inner : List UInt8} (listed : Listed Padded items inner)
      (each : ∀ item ∈ items, Grammatical item) : Grammatical (0x5B :: (inner ++ [0x5D]))
  | object {members : List Member} {inner : List UInt8}
      (listed : Listed Member.Spells members inner)
      (keys : ∀ member ∈ members, IsString member.key)
      (values : ∀ member ∈ members, Grammatical member.value) :
      Grammatical (0x7B :: (inner ++ [0x7D]))

/-- The text of an object with these members in this order, in the middle of blanks. -/
structure ObjectText (members : List Member) (text : List UInt8) : Prop where
  keys : ∀ member ∈ members, IsString member.key
  values : ∀ member ∈ members, Grammatical member.value
  spelled : ∃ inner, Listed Member.Spells members inner ∧ Padded (0x7B :: (inner ++ [0x7D])) text

/-! ## Small facts -/

theorem Blank.nil : Blank [] := by simp [Blank]

theorem blank_append {text rest : List UInt8} :
    Blank (text ++ rest) ↔ Blank text ∧ Blank rest := List.forall_mem_append

theorem Padded.refl (text : List UInt8) : Padded text text :=
  ⟨[], [], Blank.nil, Blank.nil, by simp⟩

theorem IsDigits.exists_cons {text : List UInt8} (digits : IsDigits text) :
    ∃ first rest, text = first :: rest ∧ isDigit first = true := by
  obtain ⟨first, rest, rfl⟩ := List.exists_cons_of_ne_nil digits.1
  exact ⟨first, rest, rfl, digits.2 first List.mem_cons_self⟩

end Json
end Intake
