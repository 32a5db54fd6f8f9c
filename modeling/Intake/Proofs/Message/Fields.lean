import Intake.Message.Decode
import Intake.Message.Encode
import Intake.Proofs.Json.Values
import Intake.Proofs.Text.Instant
import Intake.Proofs.Text.Uuid

/-!
# Fields as they are written and read

What a message writes for a field is read back by the reader of that field.  A member of an object
whose field is still open fills just this field of the draft.
-/

namespace Intake

open Json

/-! ## Written values -/

theorem Uuid.uuid_node (identifier : Uuid) : identifier.json.node.uuid = .ok identifier := by
  rw [Uuid.json, node, Node.uuid, Node.string]
  simp only [Bind.bind, Except.bind, identifier.parse_text]
  rfl

theorem Instant.Common.instant_node {instant : Instant} (common : instant.Common) :
    (Json.text instant.text).node.instant = .ok instant := by
  rw [node, Node.instant, Node.string]
  simp only [Bind.bind, Except.bind, common.parse_text]
  rfl

theorem ActionStatus.status_node (status : ActionStatus) (limit : Nat) :
    Message.status limit status.json.node = .ok status := by
  cases status <;> rfl

namespace Json

theorem integer_node {least bound : Int} {whole : Whole} (ge_least : least ≤ whole.value)
    (lt_bound : whole.value < bound) (expected : String) :
    (Json.whole whole).node.integer least bound expected = .ok whole.value := by
  rw [node, Node.integer, value_wholeText]
  exact if_pos ⟨ge_least, lt_bound⟩

theorem unsigned_node (value : UInt64) :
    (Json.whole (.ofUnsigned value)).node.unsigned = .ok value := by
  have nonneg : 0 ≤ (Whole.ofUnsigned value).value := Int.natCast_nonneg value.toNat
  rw [Node.unsigned, integer_node nonneg (Whole.ofUnsigned value).lt_bound]
  exact congrArg Except.ok (UInt64.ofNat_toNat)

theorem signed_node (value : Int64) : (Json.whole (.ofSigned value)).node.signed = .ok value := by
  have lt_bound : (Whole.ofSigned value).value < Counter.bound := value.toInt_lt
  rw [Node.signed, integer_node (Whole.ofSigned value).ge_least lt_bound]
  exact congrArg Except.ok (Int64.ofInt_toInt value)

theorem optionalText_node (value : Option String) :
    (optionalText value).node.optional Node.text = .ok value := by
  cases value <;> rfl

theorem optionalSigned_node (value : Option Int64) :
    (optionalSigned value).node.optional Node.signed = .ok value := by
  cases value with
  | none => rfl
  | some value =>
      change ((Json.whole (.ofSigned value)).node.signed).map some = _
      rw [signed_node]
      rfl

theorem exact_optionalText (value : Option String) : Exact (optionalText value) := by
  cases value with
  | none => exact .null
  | some value => exact .text value

theorem exact_optionalSigned (value : Option Int64) : Exact (optionalSigned value) := by
  cases value with
  | none => exact .null
  | some value => exact .whole (.ofSigned value)

/-! ## Members -/

namespace Shape

variable {Draft Value : Type} {shape : Shape Draft Value} {limit : Nat} {draft : Draft}

/-- A member fills its field, if the field is still open. -/
theorem readMembers_cons {name : String} {node : Node} {field : FieldReader Draft}
    {fill : Draft → Draft} (found : shape.field? name = some field)
    (still_open : field.isFilled draft = false) (read : field.read limit node = .ok fill)
    (rest : List (Node × Node)) :
    shape.readMembers limit draft ((.quoted (.ok name), node) :: rest) =
      shape.readMembers limit (fill draft) rest := by
  have member : shape.readMember limit draft name node = .ok (fill draft) := by
    rw [Shape.readMember, found]
    simp only [still_open, read]
    rfl
  rw [Shape.readMembers]
  change (shape.readMember limit draft name node >>= fun filled =>
    shape.readMembers limit filled rest) = _
  rw [member]
  rfl

theorem read_object (draft : Draft) {members : List (Node × Node)}
    (read : shape.readMembers limit shape.blank members = .ok draft) :
    shape.read (limit + 1) (.object members none) = shape.finish draft := by
  rw [Shape.read]
  change (shape.readMembers limit shape.blank members >>= shape.finish) = _
  rw [read]
  rfl

/-! ## What all drafts have in common -/

/-- Whatever field is read within the limit, it keeps what holds of a draft. -/
def Keeps (shape : Shape Draft Value) (limit : Nat) (Kept : Draft → Prop) : Prop :=
  ∀ field ∈ shape.fields, ∀ node fill, field.read limit node = .ok fill →
    ∀ draft, Kept draft → Kept (fill draft)

variable {Kept : Draft → Prop} {full : Draft}

theorem Keeps.readMember (keeps : shape.Keeps limit Kept) (start : Kept draft) {name : String}
    {node : Node} (read : shape.readMember limit draft name node = .ok full) : Kept full := by
  unfold Shape.readMember at read
  split at read
  case h_1 =>
    obtain ⟨_, _, read⟩ := bind_eq_ok.mp read
    obtain rfl := Except.ok.inj read
    exact start
  case h_2 field found =>
    split at read
    case isTrue => cases read
    case isFalse =>
      obtain ⟨fill, filled, rfl⟩ := map_eq_ok.mp read
      exact keeps field (List.mem_of_find?_eq_some found) node fill filled draft start

theorem Keeps.readMembers (keeps : shape.Keeps limit Kept) {members : List (Node × Node)}
    (start : Kept draft) (read : shape.readMembers limit draft members = .ok full) :
    Kept full := by
  induction members generalizing draft with
  | nil =>
      obtain rfl := Except.ok.inj read
      exact start
  | cons member rest induction =>
      obtain ⟨name, node⟩ := member
      obtain ⟨key, _, read⟩ := bind_eq_ok.mp read
      obtain ⟨next, next_read, read⟩ := bind_eq_ok.mp read
      exact induction (keeps.readMember start next_read) read

theorem Keeps.readItems (keeps : shape.Keeps limit Kept) {cut : Option Defect}
    {fields : List (FieldReader Draft)} (fields_mem : ∀ field ∈ fields, field ∈ shape.fields)
    {read : Nat} {items rest : List Node} (start : Kept draft)
    (items_read : shape.readItems limit cut read draft fields items = .ok (full, rest)) :
    Kept full := by
  induction fields generalizing read draft items with
  | nil =>
      obtain ⟨rfl, -⟩ := Prod.mk.inj (Except.ok.inj items_read)
      exact start
  | cons field fields induction =>
      have later_mem : ∀ other ∈ fields, other ∈ shape.fields := fun other other_mem =>
        fields_mem other (List.mem_cons_of_mem field other_mem)
      cases items with
      | nil =>
          obtain ⟨_, _, items_read⟩ := bind_eq_ok.mp items_read
          split at items_read
          case isTrue => exact induction later_mem start items_read
          case isFalse => cases items_read
      | cons item items =>
          obtain ⟨fill, filled, items_read⟩ := bind_eq_ok.mp items_read
          have next :=
            keeps field (fields_mem field List.mem_cons_self) item fill filled draft start
          exact induction later_mem next items_read

/-- A structure that is read is made of a draft that has in common what all drafts have. -/
theorem Keeps.read (keeps : shape.Keeps limit Kept) (start : Kept shape.blank) {node : Node}
    {value : Value} (read : shape.read (limit + 1) node = .ok value) :
    ∃ draft, Kept draft ∧ shape.finish draft = .ok value := by
  unfold Shape.read at read
  split at read
  case h_1 members cut =>
    obtain ⟨inner, entered, read⟩ := bind_eq_ok.mp read
    obtain rfl := Except.ok.inj entered
    obtain ⟨draft, members_read, read⟩ := bind_eq_ok.mp read
    obtain ⟨_, _, finished⟩ := bind_eq_ok.mp read
    exact ⟨draft, keeps.readMembers start members_read, finished⟩
  case h_2 items cut =>
    obtain ⟨inner, entered, read⟩ := bind_eq_ok.mp read
    obtain rfl := Except.ok.inj entered
    obtain ⟨⟨draft, rest⟩, items_read, read⟩ := bind_eq_ok.mp read
    obtain ⟨made, finished, read⟩ := bind_eq_ok.mp read
    refine ⟨draft, keeps.readItems (fun _ field_mem => field_mem) start items_read, ?_⟩
    rw [finished]
    split at read
    case isTrue =>
      obtain ⟨_, _, read⟩ := bind_eq_ok.mp read
      exact congrArg Except.ok (Except.ok.inj read)
    case isFalse => cases read
  case h_3 => cases read

end Shape
end Json
end Intake
