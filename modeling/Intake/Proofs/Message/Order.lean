import Intake.Json.Decode
import Mathlib.Data.List.Perm.Basic
import Mathlib.Tactic

/-!
# Members in any order

The fields of a lawful shape fill slots of their own in a draft.  So two members that are read one
after the other may change places, members that no field has a name for change nothing, and a field
that is met twice is an error wherever it stands.  Members that fill a nullable field with null fill
it with what its absence stands for.
-/

namespace Intake
namespace Json
namespace Shape

variable {Draft Value : Type} {shape : Shape Draft Value} {limit : Nat}

/-! ## Lawful shapes -/

/-- Reading a field does not touch the place of another. -/
def Spares (field other : FieldReader Draft) : Prop :=
  ∀ limit node fill, field.read limit node = .ok fill →
    ∀ draft, other.isFilled (fill draft) = other.isFilled draft

/-- Two fields fill different places of a draft. -/
structure Apart (field other : FieldReader Draft) : Prop where
  spares : Spares field other
  spared : Spares other field
  commute : ∀ limit node otherLimit otherNode fill otherFill, field.read limit node = .ok fill →
    other.read otherLimit otherNode = .ok otherFill →
    ∀ draft, fill (otherFill draft) = otherFill (fill draft)

theorem Apart.symm {field other : FieldReader Draft} (apart : Apart field other) :
    Apart other field where
  spares := apart.spared
  spared := apart.spares
  commute limit node otherLimit otherNode fill otherFill read other_read draft :=
    (apart.commute otherLimit otherNode limit node otherFill fill other_read read draft).symm

/-- Every field has a name and a place of its own, which is open at first and filled once the field
is read. -/
structure Lawful (shape : Shape Draft Value) : Prop where
  names : (shape.fields.map (·.name)).Nodup
  blank : ∀ field ∈ shape.fields, field.isFilled shape.blank = false
  filled : ∀ field ∈ shape.fields, ∀ limit node fill, field.read limit node = .ok fill →
    ∀ draft, field.isFilled (fill draft) = true
  apart : shape.fields.Pairwise Apart

theorem mem_of_field? {name : String} {field : FieldReader Draft}
    (found : shape.field? name = some field) : field ∈ shape.fields ∧ field.name = name :=
  ⟨List.mem_of_find?_eq_some found, by simpa using List.find?_some found⟩

theorem field?_eq_none_iff {name : String} :
    shape.field? name = none ↔ name ∉ shape.fields.map (·.name) := by
  simp [Shape.field?]

namespace Lawful

theorem eq_of_name (lawful : shape.Lawful) {field other : FieldReader Draft}
    (field_mem : field ∈ shape.fields) (other_mem : other ∈ shape.fields)
    (same : field.name = other.name) : field = other :=
  List.inj_on_of_nodup_map lawful.names field_mem other_mem same

theorem field?_name (lawful : shape.Lawful) {field : FieldReader Draft}
    (field_mem : field ∈ shape.fields) : shape.field? field.name = some field := by
  cases found : shape.field? field.name with
  | none => exact absurd (List.mem_map_of_mem field_mem) (field?_eq_none_iff.mp found)
  | some other =>
      obtain ⟨other_mem, same⟩ := mem_of_field? found
      rw [lawful.eq_of_name other_mem field_mem same]

theorem apart_of_ne (lawful : shape.Lawful) {field other : FieldReader Draft}
    (field_mem : field ∈ shape.fields) (other_mem : other ∈ shape.fields)
    (different : field ≠ other) : Apart field other := by
  have : Std.Symm (@Apart Draft) := ⟨fun _ _ => Apart.symm⟩
  exact lawful.apart.forall field_mem other_mem different

end Lawful

/-! ## Slots -/

/-- What one place of a draft holds. -/
structure Slot where
  {Content : Type}
  held : Option Content

/-- Whether something is held. -/
def Slot.isFilled (slot : Slot) : Bool := slot.held.isSome

/-- Reading the field fills the slot at this position, and only that. -/
structure Fills (slots : Draft → List Slot) (position : Nat) (field : FieldReader Draft) :
    Prop where
  isFilled : ∀ draft, field.isFilled draft = (slots draft)[position]?.any Slot.isFilled
  read : ∀ limit node fill, field.read limit node = .ok fill →
    ∃ slot : Slot, slot.isFilled = true ∧
      ∀ draft, slots (fill draft) = (slots draft).set position slot

namespace Fills

variable {slots : Draft → List Slot} {position place : Nat} {field other : FieldReader Draft}

/-- A field whose content is put into the slot. -/
theorem of_map {Content : Type} {reading : Nat → Node → Reading Content}
    {put : Content → Draft → Draft}
    (reads : ∀ limit node, field.read limit node = (reading limit node).map put)
    (puts : ∀ content draft, slots (put content draft) = (slots draft).set position ⟨some content⟩)
    (isFilled : ∀ draft, field.isFilled draft = (slots draft)[position]?.any Slot.isFilled) :
    Fills slots position field where
  isFilled := isFilled
  read limit node fill read := by
    rw [reads] at read
    obtain ⟨content, -, rfl⟩ := map_eq_ok.mp read
    exact ⟨⟨some content⟩, rfl, puts content⟩

theorem isFilled_fill (fills : Fills slots position field) {draft : Draft}
    (inside : position < (slots draft).length) {node : Node} {fill : Draft → Draft}
    (read : field.read limit node = .ok fill) : field.isFilled (fill draft) = true := by
  obtain ⟨slot, filled, same⟩ := fills.read limit node fill read
  rw [fills.isFilled, same, List.getElem?_set_self inside]
  exact filled

theorem spares (fills : Fills slots position field) (others : Fills slots place other)
    (different : position ≠ place) : Spares field other := by
  intro limit node fill read draft
  obtain ⟨slot, -, same⟩ := fills.read limit node fill read
  rw [others.isFilled, others.isFilled, same, List.getElem?_set_ne different]

/-- Fields that fill different slots are apart, if the slots are all there is to a draft. -/
theorem apart (fills : Fills slots position field) (others : Fills slots place other)
    (different : position ≠ place) (injective : slots.Injective) : Apart field other where
  spares := fills.spares others different
  spared := others.spares fills different.symm
  commute limit node otherLimit otherNode fill otherFill read other_read draft := by
    obtain ⟨slot, -, same⟩ := fills.read limit node fill read
    obtain ⟨otherSlot, -, other_same⟩ := others.read otherLimit otherNode otherFill other_read
    apply injective
    rw [same, other_same, other_same, same, List.set_comm _ _ different]

end Fills

/-- Fields that fill one slot after the other, from this position on. -/
inductive FillsAll (slots : Draft → List Slot) : Nat → List (FieldReader Draft) → Prop where
  | nil {position : Nat} : FillsAll slots position []
  | cons {position : Nat} {field : FieldReader Draft} {fields : List (FieldReader Draft)}
      (first : Fills slots position field) (others : FillsAll slots (position + 1) fields) :
      FillsAll slots position (field :: fields)

namespace FillsAll

variable {slots : Draft → List Slot} {position : Nat} {fields : List (FieldReader Draft)}

/-- In a draft that is a record all that is asked of a field holds by computation. -/
theorem of_map {field : FieldReader Draft} {Content : Type}
    {reading : Nat → Node → Reading Content} {put : Content → Draft → Draft}
    (others : FillsAll slots (position + 1) fields)
    (reads : ∀ limit node, field.read limit node = (reading limit node).map put := by
      exact fun _ _ => rfl)
    (puts : ∀ content draft,
      slots (put content draft) = (slots draft).set position ⟨some content⟩ := by
      exact fun _ _ => rfl)
    (isFilled : ∀ draft,
      field.isFilled draft = (slots draft)[position]?.any Slot.isFilled := by
      exact fun _ => rfl) :
    FillsAll slots position (field :: fields) :=
  .cons (.of_map reads puts isFilled) others

theorem exists_fills (all : FillsAll slots position fields) {field : FieldReader Draft}
    (field_mem : field ∈ fields) :
    ∃ place, Fills slots place field ∧ position ≤ place ∧ place < position + fields.length := by
  induction all with
  | nil => cases field_mem
  | cons first _ induction =>
      rcases List.mem_cons.mp field_mem with rfl | later
      · exact ⟨_, first, le_rfl, by simp⟩
      · obtain ⟨place, fills, above, below⟩ := induction later
        exact ⟨place, fills, by omega, by rw [List.length_cons]; omega⟩

theorem pairwise_apart (all : FillsAll slots position fields) (injective : slots.Injective) :
    fields.Pairwise Apart := by
  induction all with
  | nil => exact .nil
  | cons first others induction =>
      refine .cons (fun other other_mem => ?_) induction
      obtain ⟨place, fills, above, -⟩ := others.exists_fills other_mem
      exact first.apart fills (by omega) injective

end FillsAll

/-- A shape is lawful if its drafts are made of slots, one for each field and empty at first, which
the fields fill one after the other. -/
theorem Lawful.of_slots {slots : Draft → List Slot} (injective : slots.Injective)
    (length_eq : ∀ draft, (slots draft).length = shape.fields.length)
    (names : (shape.fields.map (·.name)).Nodup)
    (blank : ∀ slot ∈ slots shape.blank, slot.isFilled = false)
    (all : FillsAll slots 0 shape.fields) : shape.Lawful where
  names := names
  blank field field_mem := by
    obtain ⟨place, fills, -⟩ := all.exists_fills field_mem
    rw [fills.isFilled]
    cases found : (slots shape.blank)[place]? with
    | none => rfl
    | some slot => exact blank slot (List.mem_of_getElem? found)
  filled field field_mem limit node fill read draft := by
    obtain ⟨place, fills, -, below⟩ := all.exists_fills field_mem
    exact fills.isFilled_fill (by rw [length_eq]; omega) read
  apart := all.pairwise_apart injective

/-! ## One member -/

/-- A member is read into a draft: it is passed over, or it fills its field. -/
inductive Takes (shape : Shape Draft Value) (limit : Nat) : Node × Node → Draft → Draft → Prop where
  | stranger {member : Node × Node} {name : String} {draft : Draft}
      (named : member.1.key = .ok name) (unknown : shape.field? name = none)
      (passed : member.2.pass = .ok ()) : Takes shape limit member draft draft
  | field {member : Node × Node} {field : FieldReader Draft} {fill : Draft → Draft}
      {draft : Draft} (named : member.1.key = .ok field.name) (field_mem : field ∈ shape.fields)
      (still_open : field.isFilled draft = false) (read : field.read limit member.2 = .ok fill) :
      Takes shape limit member draft (fill draft)

variable {draft next full : Draft} {member other : Node × Node}
  {members others : List (Node × Node)} {field : FieldReader Draft}

theorem ofDefect_eq_ok {Read : Type} {reading : Except Defect Read} {value : Read} :
    Reading.ofDefect reading = .ok value ↔ reading = .ok value := by
  cases reading <;> simp [Reading.ofDefect]

namespace Lawful

theorem readMembers_cons_iff (lawful : shape.Lawful) :
    shape.readMembers limit draft (member :: members) = .ok full ↔
      ∃ next, shape.Takes limit member draft next ∧
        shape.readMembers limit next members = .ok full := by
  obtain ⟨key, node⟩ := member
  constructor
  · intro read
    obtain ⟨name, named, read⟩ := bind_eq_ok.mp read
    obtain ⟨next, member_read, read⟩ := bind_eq_ok.mp read
    have named := ofDefect_eq_ok.mp named
    refine ⟨next, ?_, read⟩
    unfold Shape.readMember at member_read
    split at member_read
    case h_1 unknown =>
      obtain ⟨_, passed, member_read⟩ := bind_eq_ok.mp member_read
      obtain rfl := Except.ok.inj member_read
      exact .stranger named unknown (ofDefect_eq_ok.mp passed)
    case h_2 field found =>
      obtain ⟨field_mem, rfl⟩ := mem_of_field? found
      split at member_read
      case isTrue => cases member_read
      case isFalse still_open =>
        obtain ⟨fill, field_read, rfl⟩ := map_eq_ok.mp member_read
        exact .field named field_mem (Bool.eq_false_iff.mpr still_open) field_read
  · rintro ⟨next, takes, read⟩
    cases takes with
    | @stranger name _ named unknown passed =>
        have member_read : shape.readMember limit draft name node = .ok draft := by
          rw [Shape.readMember, unknown]
          exact bind_eq_ok.mpr ⟨(), ofDefect_eq_ok.mpr passed, rfl⟩
        exact bind_eq_ok.mpr ⟨name, ofDefect_eq_ok.mpr named,
          bind_eq_ok.mpr ⟨draft, member_read, read⟩⟩
    | @field field fill _ named field_mem still_open field_read =>
        have member_read : shape.readMember limit draft field.name node = .ok (fill draft) := by
          rw [Shape.readMember, lawful.field?_name field_mem]
          simp only [still_open, field_read]
          rfl
        exact bind_eq_ok.mpr ⟨field.name, ofDefect_eq_ok.mpr named,
          bind_eq_ok.mpr ⟨fill draft, member_read, read⟩⟩

/-- A member fills the field that it names, which was open before. -/
theorem isFilled_of_takes (lawful : shape.Lawful) (field_mem : field ∈ shape.fields)
    (named : member.1.key = .ok field.name) (takes : shape.Takes limit member draft next) :
    field.isFilled draft = false ∧ field.isFilled next = true := by
  cases takes with
  | stranger other_named unknown =>
      obtain rfl := Except.ok.inj (named.symm.trans other_named)
      exact absurd (List.mem_map_of_mem field_mem) (field?_eq_none_iff.mp unknown)
  | field other_named other_mem still_open read =>
      have same := Except.ok.inj (named.symm.trans other_named)
      obtain rfl := lawful.eq_of_name field_mem other_mem same
      exact ⟨still_open, lawful.filled field field_mem _ _ _ read _⟩

/-- A member leaves the fields alone that it does not name. -/
theorem isFilled_eq_of_takes (lawful : shape.Lawful) (field_mem : field ∈ shape.fields)
    (not_named : member.1.key ≠ .ok field.name) (takes : shape.Takes limit member draft next) :
    field.isFilled next = field.isFilled draft := by
  cases takes with
  | stranger => rfl
  | field named other_mem still_open read =>
      refine (lawful.apart_of_ne other_mem field_mem ?_).spares _ _ _ read _
      rintro rfl
      exact not_named named

/-- Two members that are read one after the other may change places. -/
theorem swap (lawful : shape.Lawful) (first : shape.Takes limit member draft next)
    (second : shape.Takes limit other next full) :
    ∃ between, shape.Takes limit other draft between ∧ shape.Takes limit member between full := by
  cases first with
  | stranger named unknown passed => exact ⟨full, second, .stranger named unknown passed⟩
  | @field field fill _ named field_mem still_open read =>
      cases second with
      | stranger other_named unknown passed =>
          exact ⟨draft, .stranger other_named unknown passed,
            .field named field_mem still_open read⟩
      | @field later refill _ other_named later_mem later_open later_read =>
          have different : field ≠ later := by
            -- A field that was just filled is not open.
            rintro rfl
            exact Bool.noConfusion ((lawful.filled field field_mem _ _ _ read draft).symm.trans
              later_open)
          have apart := lawful.apart_of_ne field_mem later_mem different
          refine ⟨refill draft, .field other_named later_mem ?_ later_read, ?_⟩
          · rw [← apart.spares _ _ _ read, later_open]
          · rw [← apart.commute _ _ _ _ _ _ read later_read]
            refine .field named field_mem ?_ read
            rw [apart.spared _ _ _ later_read, still_open]

/-! ## All members -/

/-- Members fill the same draft in every order. -/
theorem readMembers_perm (lawful : shape.Lawful) (same : members.Perm others)
    (read : shape.readMembers limit draft members = .ok full) :
    shape.readMembers limit draft others = .ok full := by
  induction same generalizing draft with
  | nil => exact read
  | cons member _ induction =>
      obtain ⟨next, takes, read⟩ := lawful.readMembers_cons_iff.mp read
      exact lawful.readMembers_cons_iff.mpr ⟨next, takes, induction read⟩
  | swap other member rest =>
      obtain ⟨next, first, read⟩ := lawful.readMembers_cons_iff.mp read
      obtain ⟨last, second, read⟩ := lawful.readMembers_cons_iff.mp read
      obtain ⟨between, second, first⟩ := lawful.swap first second
      exact lawful.readMembers_cons_iff.mpr
        ⟨between, second, lawful.readMembers_cons_iff.mpr ⟨last, first, read⟩⟩
  | trans _ _ first second => exact second (first read)

theorem readMembers_append_iff (lawful : shape.Lawful) :
    shape.readMembers limit draft (members ++ others) = .ok full ↔
      ∃ next, shape.readMembers limit draft members = .ok next ∧
        shape.readMembers limit next others = .ok full := by
  induction members generalizing draft with
  | nil => simp [Shape.readMembers]
  | cons member rest induction =>
      simp only [List.cons_append, lawful.readMembers_cons_iff, induction]
      constructor
      · rintro ⟨first, takes, next, rest_read, read⟩
        exact ⟨next, ⟨first, takes, rest_read⟩, read⟩
      · rintro ⟨next, ⟨first, takes, rest_read⟩, read⟩
        exact ⟨first, takes, next, rest_read, read⟩

end Lawful

/-! ## Strangers -/

/-- A member that is passed over: its key is a string, but none of the names of the fields. -/
def Stranger (shape : Shape Draft Value) (member : Node × Node) : Prop :=
  ∃ name, member.1.key = .ok name ∧ name ∉ shape.fields.map (·.name) ∧ member.2.pass = .ok ()

theorem Lawful.readMembers_strangers (lawful : shape.Lawful)
    (strangers : ∀ member ∈ members, shape.Stranger member) :
    shape.readMembers limit draft members = .ok draft := by
  induction members with
  | nil => rfl
  | cons member rest induction =>
      obtain ⟨name, named, unknown, passed⟩ := strangers member List.mem_cons_self
      refine lawful.readMembers_cons_iff.mpr
        ⟨draft, .stranger named (field?_eq_none_iff.mpr unknown) passed, induction ?_⟩
      exact fun other other_mem => strangers other (List.mem_cons_of_mem member other_mem)

/-! ## Repeated fields -/

/-- No two members name the same field. -/
def Unrepeated (shape : Shape Draft Value) (members : List (Node × Node)) : Prop :=
  members.Pairwise fun member other => ∀ field ∈ shape.fields,
    ¬(member.1.key = .ok field.name ∧ other.1.key = .ok field.name)

namespace Lawful

theorem isFilled_eq_of_readMembers (lawful : shape.Lawful) (field_mem : field ∈ shape.fields)
    (not_named : ∀ member ∈ members, member.1.key ≠ .ok field.name)
    (read : shape.readMembers limit draft members = .ok full) :
    field.isFilled full = field.isFilled draft := by
  induction members generalizing draft with
  | nil =>
      obtain rfl := Except.ok.inj read
      rfl
  | cons member rest induction =>
      obtain ⟨next, takes, read⟩ := lawful.readMembers_cons_iff.mp read
      obtain ⟨member_not, rest_not⟩ := List.forall_mem_cons.mp not_named
      rw [induction rest_not read, lawful.isFilled_eq_of_takes field_mem member_not takes]

/-- Members that are read name only fields that were open, and each of them once. -/
theorem open_of_readMembers (lawful : shape.Lawful)
    (read : shape.readMembers limit draft members = .ok full) :
    (∀ member ∈ members, ∀ field ∈ shape.fields, member.1.key = .ok field.name →
      field.isFilled draft = false) ∧ shape.Unrepeated members := by
  induction members generalizing draft with
  | nil => exact ⟨by simp, .nil⟩
  | cons member rest induction =>
      obtain ⟨next, takes, read⟩ := lawful.readMembers_cons_iff.mp read
      obtain ⟨rest_open, rest_unrepeated⟩ := induction read
      refine ⟨?_, .cons ?_ rest_unrepeated⟩
      · rintro other other_mem field field_mem named
        by_cases member_named : member.1.key = .ok field.name
        · exact (lawful.isFilled_of_takes field_mem member_named takes).1
        · rcases List.mem_cons.mp other_mem with rfl | later
          · exact absurd named member_named
          · rw [← lawful.isFilled_eq_of_takes field_mem member_named takes]
            exact rest_open other later field field_mem named
      · rintro other later field field_mem ⟨member_named, other_named⟩
        have still_open := rest_open other later field field_mem other_named
        rw [(lawful.isFilled_of_takes field_mem member_named takes).2] at still_open
        cases still_open

end Lawful

theorem Unrepeated.perm (same : members.Perm others) :
    shape.Unrepeated members ↔ shape.Unrepeated others :=
  same.pairwise_iff fun clash field field_mem named => clash field field_mem named.symm

/-! ## Null -/

/-- A field that may be null, which is as if the field were absent. -/
def Nullable (shape : Shape Draft Value) (field : FieldReader Draft) : Prop :=
  field ∈ shape.fields ∧ ∀ limit, ∃ fill, field.read limit .null = .ok fill ∧
    ∀ draft, field.isFilled draft = false → shape.finish (fill draft) = shape.finish draft

/-- It is enough that a draft without the content of the field is finished alike after null. -/
theorem Nullable.of_absent {i : Nat} {field : FieldReader Draft} {Content : Type}
    {fill : Draft → Draft} (found : shape.fields[i]? = some field)
    (read : ∀ limit, field.read limit .null = .ok fill) (get : Draft → Option Content)
    (looks : ∀ draft, field.isFilled draft = (get draft).isSome)
    (same : ∀ draft, get draft = none → shape.finish (fill draft) = shape.finish draft) :
    shape.Nullable field := by
  refine ⟨List.mem_of_getElem? found, fun limit => ⟨fill, read limit, fun draft still_open => ?_⟩⟩
  rw [looks, Option.isSome_eq_false_iff, Option.isNone_iff_eq_none] at still_open
  exact same draft still_open

/-- A member that sets a field to null that may be null. -/
def SetsNull (shape : Shape Draft Value) (member : Node × Node) : Prop :=
  ∃ field, shape.Nullable field ∧ member.1.key = .ok field.name ∧ member.2 = .null

/-- A member that sets an open field to null is read. -/
theorem SetsNull.exists_takes (null : shape.SetsNull member)
    (still_open : ∀ field ∈ shape.fields, member.1.key = .ok field.name →
      field.isFilled draft = false) : ∃ next, shape.Takes limit member draft next := by
  obtain ⟨field, ⟨field_mem, absent⟩, named, is_null⟩ := null
  obtain ⟨fill, null_read, -⟩ := absent limit
  rw [← is_null] at null_read
  exact ⟨fill draft, .field named field_mem (still_open field field_mem named) null_read⟩

namespace Lawful

/-- Where it is read, a member that sets a field to null changes nothing. -/
theorem finish_eq_of_takes (lawful : shape.Lawful) (null : shape.SetsNull member)
    (takes : shape.Takes limit member draft next) : shape.finish next = shape.finish draft := by
  obtain ⟨field, ⟨field_mem, absent⟩, named, is_null⟩ := null
  cases takes with
  | stranger => rfl
  | field other_named other_mem still_open read =>
      have same := Except.ok.inj (named.symm.trans other_named)
      obtain rfl := lawful.eq_of_name field_mem other_mem same
      obtain ⟨fill, null_read, unchanged⟩ := absent limit
      rw [is_null, null_read] at read
      obtain rfl := Except.ok.inj read
      exact unchanged _ still_open

theorem finish_eq_of_readMembers (lawful : shape.Lawful)
    (nulls : ∀ member ∈ members, shape.SetsNull member)
    (read : shape.readMembers limit draft members = .ok full) :
    shape.finish full = shape.finish draft := by
  induction members generalizing draft with
  | nil =>
      obtain rfl := Except.ok.inj read
      rfl
  | cons member rest induction =>
      obtain ⟨next, takes, read⟩ := lawful.readMembers_cons_iff.mp read
      obtain ⟨null, rest_nulls⟩ := List.forall_mem_cons.mp nulls
      rw [induction rest_nulls read, lawful.finish_eq_of_takes null takes]

theorem exists_readMembers (lawful : shape.Lawful)
    (nulls : ∀ member ∈ members, shape.SetsNull member) (unrepeated : shape.Unrepeated members)
    (still_open : ∀ member ∈ members, ∀ field ∈ shape.fields, member.1.key = .ok field.name →
      field.isFilled draft = false) :
    ∃ full, shape.readMembers limit draft members = .ok full := by
  induction members generalizing draft with
  | nil => exact ⟨draft, rfl⟩
  | cons member rest induction =>
      obtain ⟨null, rest_nulls⟩ := List.forall_mem_cons.mp nulls
      obtain ⟨member_open, rest_open⟩ := List.forall_mem_cons.mp still_open
      obtain ⟨different, rest_unrepeated⟩ := List.pairwise_cons.mp unrepeated
      obtain ⟨next, takes⟩ := null.exists_takes member_open
      obtain ⟨full, read⟩ : ∃ full, shape.readMembers limit next rest = .ok full := by
        refine induction rest_nulls rest_unrepeated fun other other_mem field field_mem named => ?_
        have not_named : member.1.key ≠ .ok field.name := fun member_named =>
          different other other_mem field field_mem ⟨member_named, named⟩
        rw [lawful.isFilled_eq_of_takes field_mem not_named takes]
        exact rest_open other other_mem field field_mem named
      exact ⟨full, lawful.readMembers_cons_iff.mpr ⟨next, takes, read⟩⟩

end Lawful

/-! ## Objects -/

theorem read_object_iff {value : Value} :
    shape.read (limit + 1) (.object members none) = .ok value ↔
      ∃ full, shape.readMembers limit shape.blank members = .ok full ∧
        shape.finish full = .ok value := by
  constructor
  · intro read
    obtain ⟨_, entered, read⟩ := bind_eq_ok.mp read
    obtain rfl := Except.ok.inj entered
    obtain ⟨full, members_read, read⟩ := bind_eq_ok.mp read
    obtain ⟨_, -, finished⟩ := bind_eq_ok.mp read
    exact ⟨full, members_read, finished⟩
  · rintro ⟨full, members_read, finished⟩
    exact bind_eq_ok.mpr ⟨limit, rfl, bind_eq_ok.mpr ⟨full, members_read, finished⟩⟩

namespace Lawful

variable {value : Value}

theorem read_perm_iff (lawful : shape.Lawful) (same : members.Perm others) :
    shape.read (limit + 1) (.object members none) = .ok value ↔
      shape.read (limit + 1) (.object others none) = .ok value := by
  simp only [read_object_iff]
  constructor
  · exact fun ⟨full, read, finished⟩ => ⟨full, lawful.readMembers_perm same read, finished⟩
  · exact fun ⟨full, read, finished⟩ => ⟨full, lawful.readMembers_perm same.symm read, finished⟩

/-- Strangers among the members change nothing. -/
theorem read_strangers_iff (lawful : shape.Lawful)
    (strangers : ∀ member ∈ others, shape.Stranger member) :
    shape.read (limit + 1) (.object (members ++ others) none) = .ok value ↔
      shape.read (limit + 1) (.object members none) = .ok value := by
  simp only [read_object_iff, lawful.readMembers_append_iff,
    lawful.readMembers_strangers strangers]
  constructor
  · rintro ⟨full, ⟨next, read, same⟩, finished⟩
    obtain rfl := Except.ok.inj same
    exact ⟨next, read, finished⟩
  · rintro ⟨full, read, finished⟩
    exact ⟨full, ⟨full, read, rfl⟩, finished⟩

/-- Members that set fields to null change nothing, if they repeat no field. -/
theorem read_nulls_iff (lawful : shape.Lawful) (nulls : ∀ member ∈ others, shape.SetsNull member) :
    shape.read (limit + 1) (.object (members ++ others) none) = .ok value ↔
      shape.Unrepeated (members ++ others) ∧
        shape.read (limit + 1) (.object members none) = .ok value := by
  simp only [read_object_iff]
  constructor
  · rintro ⟨full, read, finished⟩
    obtain ⟨next, members_read, nulls_read⟩ := lawful.readMembers_append_iff.mp read
    refine ⟨(lawful.open_of_readMembers read).2, next, members_read, ?_⟩
    rw [← lawful.finish_eq_of_readMembers nulls nulls_read, finished]
  · rintro ⟨unrepeated, next, members_read, finished⟩
    obtain ⟨-, nulls_unrepeated, across⟩ := List.pairwise_append.mp unrepeated
    obtain ⟨full, nulls_read⟩ : ∃ full, shape.readMembers limit next others = .ok full := by
      refine lawful.exists_readMembers nulls nulls_unrepeated fun null null_mem field field_mem
        named => ?_
      have not_named : ∀ member ∈ members, member.1.key ≠ .ok field.name :=
        fun member member_mem member_named =>
          across member member_mem null null_mem field field_mem ⟨member_named, named⟩
      rw [lawful.isFilled_eq_of_readMembers field_mem not_named members_read,
        lawful.blank field field_mem]
    refine ⟨full, lawful.readMembers_append_iff.mpr ⟨next, members_read, nulls_read⟩, ?_⟩
    rw [lawful.finish_eq_of_readMembers nulls nulls_read, finished]

/-- A field that is repeated is an error. -/
theorem unrepeated_of_read (lawful : shape.Lawful)
    (read : shape.read (limit + 1) (.object members none) = .ok value) :
    shape.Unrepeated members := by
  obtain ⟨full, members_read, -⟩ := read_object_iff.mp read
  exact (lawful.open_of_readMembers members_read).2

end Lawful
end Shape
end Json
end Intake
