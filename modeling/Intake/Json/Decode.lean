import Intake.Instant
import Intake.Json.Document
import Intake.Text.Quoted
import Intake.Uuid

/-!
# Reading values out of documents

A reader takes a node, and how many containers may still be entered, to a value or to a `Fault`.
It meets the parts of the node in the order of the text, so the first thing that is wrong decides.
A structure is read from an object, its fields in any order among other members, or from an array,
its fields in the order of its `Shape`.
-/

namespace Intake
namespace Json

/-! ## Faults -/

/-- What stands in the place of a value of another type. -/
inductive Found where
  | null
  | boolean (value : Bool)
  | whole (value : Whole)
  | double (bits : UInt64)
  | text (value : String)
  | sequence
  | map

/-- Why a value is not read. -/
inductive Fault where
  /-- The text is not JSON, or is nested too deeply. -/
  | defect (kind : Defect)
  | missingField (name : String)
  | duplicateField (name : String)
  | unknownVariant (name : String) (variants : String)
  | invalidType (found : Found) (expected : String)
  | invalidValue (found : Found) (expected : String)
  | invalidLength (length : Nat) (expected : String)
  | malformedUuid
  | malformedInstant

/-- The words for what was found. -/
def Found.words : Found → String
  | null => "null"
  | boolean value => "boolean \x60" ++ (if value then "true" else "false") ++ "\x60"
  | whole value => "integer \x60" ++ String.ofList (wholeChars value.value) ++ "\x60"
  | double bits => "floating point \x60" ++ (Binary64.ofBits bits).text .message ++ "\x60"
  | text value => "string " ++ Quoted.text value
  | sequence => "sequence"
  | map => "map"

/-- The report of a fault of the data; defects of the text have none. -/
def Fault.message : Fault → Option String
  | defect _ => none
  | missingField name => some ("missing field \x60" ++ name ++ "\x60")
  | duplicateField name => some ("duplicate field \x60" ++ name ++ "\x60")
  | unknownVariant name variants =>
      some ("unknown variant \x60" ++ name ++ "\x60, expected " ++ variants)
  | invalidType found expected =>
      some ("invalid type: " ++ found.words ++ ", expected " ++ expected)
  | invalidValue found expected =>
      some ("invalid value: " ++ found.words ++ ", expected " ++ expected)
  | invalidLength length expected =>
      some ("invalid length " ++ toString length ++ ", expected " ++ expected)
  | malformedUuid => some "UUID parsing failed"
  | malformedInstant => none

/-- The outcome of reading. -/
abbrev Reading (Value : Type) := Except Fault Value

/-- A defect of the text as the outcome of reading. -/
def Reading.ofDefect {Value : Type} : Except Defect Value → Reading Value
  | .ok value => .ok value
  | .error kind => .error (.defect kind)

/-- How many containers may be entered, one within the other. -/
def deepest : Nat := 127

/-- The limit within a container, if it may be entered. -/
def enter : Nat → Reading Nat
  | 0 => .error (.defect .malformed)
  | limit + 1 => .ok limit

/-! ## Plain values -/

namespace Node

/-- The fault of a node that is not of the expected type. -/
def mismatch (expected : String) : Node → Fault
  | null => .invalidType .null expected
  | boolean value => .invalidType (.boolean value) expected
  | number value =>
      match value.value with
      | .ok (.whole value) => .invalidType (.whole value) expected
      | .ok (.double bits) => .invalidType (.double bits) expected
      | .error kind => .defect kind
  | quoted (.ok value) => .invalidType (.text value) expected
  | quoted (.error kind) => .defect kind
  | array _ _ => .invalidType .sequence expected
  | object _ _ => .invalidType .map expected
  | flawed flaw => .defect flaw.read

/-- Reads a string. -/
def string (expected : String) : Node → Reading String
  | quoted (.ok value) => .ok value
  | node => .error (node.mismatch expected)

/-- Reads any string. -/
def text (node : Node) : Reading String := node.string "a string"

/-- Reads a whole number within bounds. -/
def integer (least bound : Int) (expected : String) : Node → Reading Int
  | number value =>
      match value.value with
      | .ok (.whole value) =>
          if least ≤ value.value ∧ value.value < bound then .ok value.value
          else .error (.invalidValue (.whole value) expected)
      | .ok (.double bits) => .error (.invalidType (.double bits) expected)
      | .error kind => .error (.defect kind)
  | node => .error (node.mismatch expected)

/-- Reads an unsigned number. -/
def unsigned (node : Node) : Reading UInt64 :=
  (node.integer 0 UInt64.size "u64").map fun value => UInt64.ofNat value.toNat

/-- Reads a signed number. -/
def signed (node : Node) : Reading Int64 :=
  (node.integer Counter.least Counter.bound "i64").map Int64.ofInt

/-- Reads an identifier. -/
def uuid (node : Node) : Reading Uuid := do
  match Uuid.parse (← node.string "a formatted UUID string") with
  | some value => return value
  | none => throw .malformedUuid

/-- Reads a point in time. -/
def instant (node : Node) : Reading Instant := do
  match Instant.parse (← node.string "an RFC 3339 formatted date and time string") with
  | some value => return value
  | none => throw .malformedInstant

/-- Reads null. -/
def unit : Node → Reading Unit
  | null => .ok ()
  | node => .error (node.mismatch "unit")

/-- Reads one of a few names, alone or as the only key of an object whose value is null. -/
def variant {Value : Type} (choose : String → Option Value) (variants : String) (limit : Nat) :
    Node → Reading Value
  | quoted value => do named (← Reading.ofDefect value)
  | object members cut => do
      let _ ← enter limit
      match members with
      | [] => do
          Reading.ofDefect (finish cut)
          throw (.defect .malformed)
      | (name, node) :: rest => do
          let value ← named (← name.string "variant identifier")
          node.unit
          if rest.isEmpty then Reading.ofDefect (finish cut) else throw (.defect .malformed)
          return value
  | flawed (.quoted read _) => .error (.defect read)
  | flawed (.missing kind) => .error (.defect kind)
  | _ => .error (.defect .malformed)
where
  /-- The value of a name. -/
  named (name : String) : Reading Value :=
    match choose name with
    | some value => .ok value
    | none => .error (.unknownVariant name variants)

/-- Reads null as the absence of a value. -/
def optional {Value : Type} (read : Node → Reading Value) : Node → Reading (Option Value)
  | null => .ok none
  | node => (read node).map some

mutual

/-- Reads any value. -/
def json (limit : Nat) : Node → Reading Json
  | null => .ok .null
  | boolean value => .ok (.boolean value)
  | number value =>
      match value.value with
      | .ok (.whole value) => .ok (.whole value)
      | .ok (.double bits) => .ok (.double bits)
      | .error kind => .error (.defect kind)
  | quoted value => (Reading.ofDefect value).map .text
  | array items cut => do
      let values ← jsonItems (← enter limit) items
      Reading.ofDefect (finish cut)
      return .array values
  | object members cut => do
      let values ← jsonMembers (← enter limit) members []
      Reading.ofDefect (finish cut)
      return .object values
  | flawed flaw => .error (.defect flaw.read)

/-- Reads the items of an array. -/
def jsonItems (limit : Nat) : List Node → Reading (List Json)
  | [] => .ok []
  | item :: rest => do
      let value ← item.json limit
      let values ← jsonItems limit rest
      return value :: values

/-- Reads the members of an object into those already read. -/
def jsonMembers (limit : Nat) : List (Node × Node) → List (String × Json) →
    Reading (List (String × Json))
  | [], members => .ok members
  | (name, node) :: rest, members => do
      let name ← Reading.ofDefect name.key
      let value ← node.json limit
      jsonMembers limit rest (insertMember name value members)

end

end Node

/-! ## Structures -/

/-- A field of a structure that is read into a draft. -/
structure FieldReader (Draft : Type) where
  /-- Its name in objects. -/
  name : String
  /-- An array may end before it. -/
  defaulted : Bool
  /-- Whether the draft has it. -/
  isFilled : Draft → Bool
  /-- Reads it and adds it to a draft. -/
  read : Nat → Node → Reading (Draft → Draft)

/-- How a structure is read. -/
structure Shape (Draft Value : Type) where
  /-- Its name in reports. -/
  name : String
  /-- Its fields, in the order of arrays. -/
  fields : List (FieldReader Draft)
  /-- The draft without any field. -/
  blank : Draft
  /-- The value of a draft, unless a field is missing. -/
  finish : Draft → Reading Value

namespace Shape

variable {Draft Value : Type}

/-- The field of a name. -/
def field? (shape : Shape Draft Value) (name : String) : Option (FieldReader Draft) :=
  shape.fields.find? (·.name == name)

/-- Reads one member of an object: a field at most once, anything else is passed over. -/
def readMember (shape : Shape Draft Value) (limit : Nat) (draft : Draft) (name : String)
    (node : Node) : Reading Draft :=
  match shape.field? name with
  | none => do
      Reading.ofDefect node.pass
      return draft
  | some field =>
      if field.isFilled draft then .error (.duplicateField field.name)
      else (field.read limit node).map (· draft)

/-- Reads the members of an object. -/
def readMembers (shape : Shape Draft Value) (limit : Nat) :
    Draft → List (Node × Node) → Reading Draft
  | draft, [] => .ok draft
  | draft, (name, node) :: rest => do
      let name ← Reading.ofDefect name.key
      let draft ← shape.readMember limit draft name node
      shape.readMembers limit draft rest

/-- What an array is expected to be. -/
def expectedLength (shape : Shape Draft Value) : String :=
  "struct " ++ shape.name ++ " with " ++ toString shape.fields.length ++ " elements"

/-- Reads the items of an array into the fields; the items that are left over. -/
def readItems (shape : Shape Draft Value) (limit : Nat) (cut : Option Defect) :
    Nat → Draft → List (FieldReader Draft) → List Node → Reading (Draft × List Node)
  | _, draft, [], items => .ok (draft, items)
  | read, draft, field :: fields, item :: items => do
      let fill ← field.read limit item
      shape.readItems limit cut (read + 1) (fill draft) fields items
  | read, draft, field :: fields, [] => do
      Reading.ofDefect (Node.finish cut)
      if field.defaulted then shape.readItems limit cut (read + 1) draft fields []
      else throw (.invalidLength read shape.expectedLength)

/-- Reads a structure. -/
def read (shape : Shape Draft Value) (limit : Nat) : Node → Reading Value
  | .object members cut => do
      let draft ← shape.readMembers (← enter limit) shape.blank members
      Reading.ofDefect (Node.finish cut)
      shape.finish draft
  | .array items cut => do
      let (draft, rest) ← shape.readItems (← enter limit) cut 0 shape.blank shape.fields items
      let value ← shape.finish draft
      if rest.isEmpty then Reading.ofDefect (Node.finish cut) else throw (.defect .malformed)
      return value
  | node => .error (node.mismatch ("struct " ++ shape.name))

end Shape

/-- A field that must be there. -/
def required {Value : Type} (name : String) : Option Value → Reading Value
  | some value => .ok value
  | none => .error (.missingField name)

/-! ## Messages -/

/-- Reads a whole text: one value and nothing after it. -/
def decode {Value : Type} (read : Nat → Node → Reading Value) (text : List UInt8) :
    Reading Value := do
  let document := Document.read text
  let value ← read deepest document.root
  if document.trailing then throw (.defect .malformed)
  return value

end Json
end Intake
