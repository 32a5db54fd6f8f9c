import Intake.Message.Decode
import Intake.Proofs.Json.Unbroken
import Intake.Proofs.Message.Order
import Intake.Proofs.Message.RoundTrip

/-!
# Messages in other arrangements

A message is read from its object text, member by member.  Its shape is lawful, so neither the order
of the members nor members that it does not know make a difference, and an optional field may be
null or absent.  All this is said of texts: of members as they are spelled, with any escapes in
their keys and any blanks between them.
-/

namespace Intake

open Json

namespace Json

variable {Draft Value : Type} {shape : Shape Draft Value}

/-! ## Keys -/

/-- The key of a member is a string that denotes this name, however it is escaped. -/
def Member.Named (member : Member) (name : String) : Prop := SpellsString member.key name

theorem Member.named_iff {member : Member} {name : String} (is_string : IsString member.key) :
    member.Named name ↔ member.trees.1.key = .ok name := by
  obtain ⟨content, key_tree, -, denotes⟩ := is_string.tree
  rw [Member.Named, ← denotes, Member.trees, key_tree]
  cases content <;> simp [Node.key]

/-- The key `"\u0078"` denotes `x`. -/
example : Member.Named ⟨[0x22, 0x5C, 0x75, 0x30, 0x30, 0x37, 0x38, 0x22], nullText⟩ "x" :=
  have zero : HexDigit 0x30 0 := ⟨by decide, .inl rfl⟩
  have digits : CodeUnit 0x30 0x30 0x37 0x38 'x'.toNat :=
    ⟨0, 0, 7, 8, zero, zero, ⟨by decide, .inl rfl⟩, ⟨by decide, .inl rfl⟩, rfl⟩
  ⟨_, .character digits .nil, rfl⟩

theorem Member.named_written (member : String × Json) :
    (Member.written member).Named member.1 := spellsString_quoted member.1

/-- No two members have keys that denote the same of these names. -/
def Unrepeated (names : List String) (members : List Member) : Prop :=
  members.Pairwise fun first second => ∀ name ∈ names, ¬(first.Named name ∧ second.Named name)

/-! ## Object texts -/

/-- Which other texts a structure is read from as well.  The names are those of its fields, and the
optional ones those of fields that may be absent. -/
structure Tolerant (shape : Shape Draft Value) (names optional : List String) : Prop where
  /-- Its fields have these names. -/
  fields : shape.fields.map (·.name) = names
  /-- It is read from no text but those of the grammar. -/
  spelled : ∀ (text : List UInt8) (value : Value), OpensObject text →
    decode shape.read text = .ok value → ∃ members, ObjectText members text
  /-- The members may stand in any order, with strangers anywhere among them. -/
  extended : ∀ (members strangers others : List Member) (text other : List UInt8),
    ObjectText members text → ObjectText others other → others.Perm (members ++ strangers) →
    (∀ member ∈ strangers, ∃ name, member.Named name ∧ name ∉ names) →
    ∀ value, decode shape.read other = .ok value ↔ decode shape.read text = .ok value
  /-- Members that set optional fields to null make no difference, as long as no field is
  repeated. -/
  nulls : ∀ (members nulls others : List Member) (text other : List UInt8),
    ObjectText members text → ObjectText others other → others.Perm (members ++ nulls) →
    (∀ member ∈ nulls, member.value = nullText ∧ ∃ name ∈ optional, member.Named name) →
    ∀ value, decode shape.read other = .ok value ↔
      Unrepeated names others ∧ decode shape.read text = .ok value
  /-- A field that is repeated is an error, whatever it holds. -/
  repeated : ∀ (members : List Member) (text : List UInt8), ObjectText members text →
    ¬Unrepeated names members → ∃ fault, decode shape.read text = .error fault

/-- Nothing is missing from a tree that a structure is read from. -/
theorem Shape.pass_of_read {limit : Nat} {node : Node} {value : Value}
    (read : shape.read limit node = .ok value) : node.pass = .ok () := by
  have finished {cut : Option Defect} (ended : Reading.ofDefect (Node.finish cut) = .ok ()) :
      cut = none := by
    cases cut with
    | none => rfl
    | some defect => cases ended
  unfold Shape.read at read
  split at read
  case h_1 members cut =>
    obtain ⟨_, -, read⟩ := bind_eq_ok.mp read
    obtain ⟨_, -, read⟩ := bind_eq_ok.mp read
    obtain ⟨_, ended, -⟩ := bind_eq_ok.mp read
    obtain rfl := finished ended
    rfl
  case h_2 items cut =>
    obtain ⟨_, -, read⟩ := bind_eq_ok.mp read
    obtain ⟨⟨draft, rest⟩, -, read⟩ := bind_eq_ok.mp read
    obtain ⟨_, -, read⟩ := bind_eq_ok.mp read
    split at read
    case isTrue =>
      obtain ⟨_, ended, -⟩ := bind_eq_ok.mp read
      obtain rfl := finished ended
      rfl
    case isFalse => cases read
  case h_3 => cases read

/-- What is read from a text that opens an object is read from an object text. -/
theorem Shape.exists_objectText {text : List UInt8} {value : Value} (opens : OpensObject text)
    (read : decode shape.read text = .ok value) : ∃ members, ObjectText members text := by
  obtain ⟨made, root_read, read⟩ := bind_eq_ok.mp read
  split at read
  case isTrue => cases read
  case isFalse whole =>
    obtain ⟨inner, grammatical, padded⟩ := (unbroken_read_iff text).mp
      ⟨Shape.pass_of_read root_read, Bool.eq_false_iff.mpr whole⟩
    exact grammatical.exists_members padded opens

theorem ObjectText.decode {members : List Member} {text : List UInt8}
    (object : ObjectText members text) (read : Nat → Node → Reading Value) :
    Json.decode read text = read deepest (.object (members.map Member.trees) none) := by
  rw [Json.decode, object.read]
  dsimp only
  cases read deepest (.object (members.map Member.trees) none) <;> rfl

theorem ObjectText.unrepeated_iff {members : List Member} {text : List UInt8}
    (object : ObjectText members text) :
    shape.Unrepeated (members.map Member.trees) ↔
      Unrepeated (shape.fields.map (·.name)) members := by
  refine List.pairwise_map.trans
    (List.Pairwise.iff_of_mem fun {first second} first_mem second_mem => ?_)
  rw [List.forall_mem_map]
  simp only [Member.named_iff (object.keys first first_mem),
    Member.named_iff (object.keys second second_mem)]

/-- A structure with a lawful shape is read from its members in any order, among strangers, and with
or without null. -/
theorem Shape.Lawful.tolerant (lawful : shape.Lawful) {optional : List String}
    (nullable : ∀ name ∈ optional, ∃ field, shape.Nullable field ∧ field.name = name) :
    Tolerant shape (shape.fields.map (·.name)) optional where
  fields := rfl
  spelled _ _ := Shape.exists_objectText
  extended members strangers others text other object other_object same unknown value := by
    have strange : ∀ member ∈ strangers.map Member.trees, shape.Stranger member := by
      refine List.forall_mem_map.mpr fun member member_mem => ?_
      obtain ⟨name, named, not_field⟩ := unknown member member_mem
      have other_mem := same.mem_iff.mpr (List.mem_append_right members member_mem)
      exact ⟨name, (Member.named_iff (other_object.keys member other_mem)).mp named, not_field,
        (other_object.values member other_mem).pass⟩
    have together := same.map Member.trees
    rw [List.map_append] at together
    rw [object.decode, other_object.decode]
    exact (lawful.read_perm_iff together).trans (lawful.read_strangers_iff strange)
  nulls members nulls others text other object other_object same null value := by
    have sets_null : ∀ member ∈ nulls.map Member.trees, shape.SetsNull member := by
      refine List.forall_mem_map.mpr fun member member_mem => ?_
      obtain ⟨is_null, name, name_mem, named⟩ := null member member_mem
      obtain ⟨field, field_nullable, rfl⟩ := nullable name name_mem
      have other_mem := same.mem_iff.mpr (List.mem_append_right members member_mem)
      refine ⟨field, field_nullable,
        (Member.named_iff (other_object.keys member other_mem)).mp named, ?_⟩
      rw [Member.trees, is_null]
      rfl
    have together := same.map Member.trees
    rw [List.map_append] at together
    rw [object.decode, other_object.decode, ← other_object.unrepeated_iff,
      Shape.Unrepeated.perm together]
    exact (lawful.read_perm_iff together).trans (lawful.read_nulls_iff sets_null)
  repeated members text object repeated := by
    cases read : decode shape.read text with
    | error fault => exact ⟨fault, rfl⟩
    | ok value =>
        rw [object.decode] at read
        exact absurd (object.unrepeated_iff.mp (lawful.unrepeated_of_read read)) repeated

end Json

/-! ## Messages -/

namespace Message

-- Every draft is a record with one slot for each field: a field sets its own slot to something and
-- looks at no other.

open Shape (Slot)

/-- The slots of a draft, one for each field. -/
def ChunkDraft.slots (draft : ChunkDraft) : List Slot :=
  [⟨draft.job⟩, ⟨draft.chunk⟩, ⟨draft.recordCount⟩, ⟨draft.totalRecords⟩, ⟨draft.payload⟩]

theorem ChunkDraft.slots_injective : ChunkDraft.slots.Injective := by
  rintro ⟨⟩ ⟨⟩ same
  simpa [slots] using same

theorem chunk_lawful : chunk.Lawful :=
  .of_slots ChunkDraft.slots_injective (fun _ => rfl) (by decide) (by decide)
    (.of_map <| .of_map <| .of_map <| .of_map <| .of_map .nil)

/-- The slots of a draft, one for each field. -/
def OutcomeDraft.slots (draft : OutcomeDraft) : List Slot :=
  [⟨draft.job⟩, ⟨draft.source⟩, ⟨draft.entityType⟩, ⟨draft.entityId⟩, ⟨draft.action⟩,
    ⟨draft.status⟩, ⟨draft.error⟩]

theorem OutcomeDraft.slots_injective : OutcomeDraft.slots.Injective := by
  rintro ⟨⟩ ⟨⟩ same
  simpa [slots] using same

theorem outcome_lawful : outcome.Lawful :=
  .of_slots OutcomeDraft.slots_injective (fun _ => rfl) (by decide) (by decide)
    (.of_map <| .of_map <| .of_map <| .of_map <| .of_map <| .of_map <| .of_map .nil)

/-- The slots of a draft, one for each field. -/
def RecordDraft.slots (draft : RecordDraft) : List Slot :=
  [⟨draft.id⟩, ⟨draft.job⟩, ⟨draft.source⟩, ⟨draft.entityType⟩, ⟨draft.entityId⟩, ⟨draft.action⟩,
    ⟨draft.status⟩, ⟨draft.error⟩, ⟨draft.createdAt⟩]

theorem RecordDraft.slots_injective : RecordDraft.slots.Injective := by
  rintro ⟨⟩ ⟨⟩ same
  simpa [slots] using same

theorem record_lawful : record.Lawful :=
  .of_slots RecordDraft.slots_injective (fun _ => rfl) (by decide) (by decide)
    (.of_map <| .of_map <| .of_map <| .of_map <| .of_map <|
      .of_map <| .of_map <| .of_map <| .of_map .nil)

/-- The slots of a draft, one for each field. -/
def ProgressDraft.slots (draft : ProgressDraft) : List Slot :=
  [⟨draft.job⟩, ⟨draft.total⟩, ⟨draft.succeeded⟩, ⟨draft.failed⟩]

theorem ProgressDraft.slots_injective : ProgressDraft.slots.Injective := by
  rintro ⟨⟩ ⟨⟩ same
  simpa [slots] using same

theorem progress_lawful : progress.Lawful :=
  .of_slots ProgressDraft.slots_injective (fun _ => rfl) (by decide) (by decide)
    (.of_map <| .of_map <| .of_map <| .of_map .nil)

/-- The slots of a draft, one for each field. -/
def DeltaDraft.slots (draft : DeltaDraft) : List Slot :=
  [⟨draft.job⟩, ⟨draft.succeeded⟩, ⟨draft.failed⟩]

theorem DeltaDraft.slots_injective : DeltaDraft.slots.Injective := by
  rintro ⟨⟩ ⟨⟩ same
  simpa [slots] using same

theorem delta_lawful : delta.Lawful :=
  .of_slots DeltaDraft.slots_injective (fun _ => rfl) (by decide) (by decide)
    (.of_map <| .of_map <| .of_map .nil)

theorem chunk_nullable :
    ∀ name ∈ ["total_records"], ∃ field, chunk.Nullable field ∧ field.name = name :=
  List.forall_mem_singleton.mpr
    ⟨_, .of_absent (i := 3) rfl (fun _ => rfl) (·.totalRecords) (fun _ => rfl)
      fun _ absent => by simp [chunk, absent], rfl⟩

theorem outcome_nullable :
    ∀ name ∈ ["entity_id", "error"], ∃ field, outcome.Nullable field ∧ field.name = name :=
  List.forall_iff_forall_mem.mp
    ⟨⟨_, .of_absent (i := 3) rfl (fun _ => rfl) (·.entityId) (fun _ => rfl)
        fun _ absent => by simp [outcome, absent], rfl⟩,
      ⟨_, .of_absent (i := 6) rfl (fun _ => rfl) (·.error) (fun _ => rfl)
        fun _ absent => by simp [outcome, absent], rfl⟩⟩

theorem record_nullable :
    ∀ name ∈ ["entity_id", "error"], ∃ field, record.Nullable field ∧ field.name = name :=
  List.forall_iff_forall_mem.mp
    ⟨⟨_, .of_absent (i := 4) rfl (fun _ => rfl) (·.entityId) (fun _ => rfl)
        fun _ absent => by simp [record, absent], rfl⟩,
      ⟨_, .of_absent (i := 7) rfl (fun _ => rfl) (·.error) (fun _ => rfl)
        fun _ absent => by simp [record, absent], rfl⟩⟩

theorem progress_nullable :
    ∀ name ∈ ["total"], ∃ field, progress.Nullable field ∧ field.name = name :=
  List.forall_mem_singleton.mpr
    ⟨_, .of_absent (i := 1) rfl (fun _ => rfl) (·.total) (fun _ => rfl)
      fun _ absent => by simp [progress, absent], rfl⟩

/-- Every message is read alike however its members are arranged: in any order, among members that
it does not know, and with its optional fields null or absent.  A field that is repeated is an
error. -/
theorem members_reorder_and_extend :
    Tolerant chunk ["job_execution_id", "chunk_id", "record_count", "total_records", "payload"]
      ["total_records"] ∧
    Tolerant outcome ["job_execution_id", "source_record_id", "entity_type", "entity_id",
      "action_type", "status", "error"] ["entity_id", "error"] ∧
    Tolerant record ["id", "job_execution_id", "source_record_id", "entity_type", "entity_id",
      "action_type", "action_status", "error", "created_at"] ["entity_id", "error"] ∧
    Tolerant progress ["job_execution_id", "total", "succeeded", "failed"] ["total"] ∧
    Tolerant delta ["job_execution_id", "success_count_delta", "error_count_delta"] [] :=
  ⟨chunk_lawful.tolerant chunk_nullable, outcome_lawful.tolerant outcome_nullable,
    record_lawful.tolerant record_nullable, progress_lawful.tolerant progress_nullable,
    delta_lawful.tolerant (by simp)⟩

/-- Progress whose total is null. -/
def openEnded : JobProgress := ⟨.zero, none, 3, -1⟩

/-- Its members without the total. -/
def withoutTotal : List (String × Json) :=
  [("job_execution_id", openEnded.job.json), ("succeeded", .whole (.ofSigned openEnded.succeeded)),
    ("failed", .whole (.ofSigned openEnded.failed))]

/-- A member that progress does not know. -/
def stranger : String × Json := ("\"x", .array [.object []])

/-- Progress is read without its total, in the opposite order and behind a stranger. -/
theorem openEnded_read_behind_stranger :
    decode progress.read (Json.object (withoutTotal ++ [stranger]).reverse).bytes =
      .ok openEnded := by
  have plain : ∀ member ∈ withoutTotal, Exact member.2 :=
    List.forall_iff_forall_mem.mp ⟨.text _, .whole _, .whole _⟩
  have whole : ∀ member ∈ ("job_execution_id", openEnded.job.json) :: ("total", .null) ::
      withoutTotal.tail, Exact member.2 :=
    List.forall_iff_forall_mem.mp ⟨.text _, .null, .whole _, .whole _⟩
  have mixed : ∀ member ∈ (withoutTotal ++ [stranger]).reverse, Exact member.2 := by
    refine fun member member_mem => ?_
    rcases List.mem_append.mp (List.mem_reverse.mp member_mem) with known | unknown
    · exact plain member known
    · rw [List.mem_singleton.mp unknown]
      exact .array (List.forall_mem_singleton.mpr (.object (by simp)))
  have total_null : ∀ member ∈ [Member.written ("total", .null)],
      member.value = nullText ∧ ∃ name ∈ ["total"], member.Named name :=
    List.forall_mem_singleton.mpr ⟨rfl, "total", .head _, Member.named_written _⟩
  have unknown : ∀ member ∈ [Member.written stranger], ∃ name, member.Named name ∧
      name ∉ ["job_execution_id", "total", "succeeded", "failed"] :=
    List.forall_mem_singleton.mpr ⟨_, Member.named_written stranger, by decide⟩
  have tolerant := members_reorder_and_extend.2.2.2.1
  have total_last := List.Perm.cons (Member.written ("job_execution_id", openEnded.job.json))
    (List.perm_append_singleton (Member.written ("total", .null))
      (withoutTotal.tail.map Member.written)).symm
  have read := (tolerant.nulls _ _ _ _ _ (objectText_written plain) (objectText_written whole)
    total_last total_null openEnded).mp openEnded.decode_bytes
  refine (tolerant.extended _ _ _ _ _ (objectText_written plain) (objectText_written mixed) ?_
    unknown openEnded).mpr read.2
  rw [List.map_reverse, List.map_append]
  exact List.reverse_perm _

end Message
end Intake
