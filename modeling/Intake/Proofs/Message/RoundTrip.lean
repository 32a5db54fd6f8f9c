import Intake.Proofs.Message.Fields

/-!
# Messages as they are written and read

Every message is read back from its text.  Its fields fill an empty draft one after the other, and
the full draft is the message.  What a chunk carries is forwarded as a text of its own, and that is
read back as well, whatever text the chunk came in.
-/

namespace Intake

open Json

/-- What is read of a field goes into the draft. -/
private theorem filled {Value Result : Type} {reading : Reading Value} {value : Value}
    (read : reading = .ok value) (fill : Value → Result) :
    reading.map fill = .ok (fill value) := by
  rw [read]
  rfl

/-! ## Outcomes -/

theorem RecordProcessed.exact_json (event : RecordProcessed) : Exact event.json :=
  .object (List.forall_iff_forall_mem.mp
    ⟨.text _, .text _, .text _, exact_optionalText _, .text _, .text _, exact_optionalText _⟩)

theorem RecordProcessed.read_node (event : RecordProcessed) :
    Message.outcome.read deepest event.json.node = .ok event := by
  refine (Shape.read_object ⟨some event.job, some event.source, some event.entityType,
    some event.entityId, some event.action, some event.status, some event.error⟩ ?_).trans rfl
  refine (Shape.readMembers_cons rfl rfl (filled event.job.uuid_node _) _).trans ?_
  refine (Shape.readMembers_cons rfl rfl rfl _).trans ?_
  refine (Shape.readMembers_cons rfl rfl rfl _).trans ?_
  refine (Shape.readMembers_cons rfl rfl (filled (optionalText_node event.entityId) _) _).trans ?_
  refine (Shape.readMembers_cons rfl rfl rfl _).trans ?_
  refine (Shape.readMembers_cons rfl rfl (filled (event.status.status_node 126) _) _).trans ?_
  refine (Shape.readMembers_cons rfl rfl (filled (optionalText_node event.error) _) _).trans ?_
  rfl

theorem RecordProcessed.decode_bytes (event : RecordProcessed) :
    decode Message.outcome.read event.json.bytes = .ok event := by
  rw [event.exact_json.decode_bytes, event.read_node]

/-! ## Status -/

theorem ActionStatus.decode_bytes (status : ActionStatus) :
    decode Message.status status.json.bytes = .ok status := by
  have exact_json : Exact status.json := .text status.name
  rw [exact_json.decode_bytes, status.status_node]

/-! ## Journal records -/

theorem JournalRecord.exact_json (record : JournalRecord) : Exact record.json :=
  .object (List.forall_iff_forall_mem.mp
    ⟨.text _, .text _, .text _, .text _, exact_optionalText _, .text _, .text _,
      exact_optionalText _, .text _⟩)

theorem JournalRecord.read_node {record : JournalRecord} (common : record.createdAt.Common) :
    Message.record.read deepest record.json.node = .ok record := by
  have created := common.instant_node
  -- How the time is written plays no part any more, only that it is read back.
  rw [JournalRecord.json]
  generalize record.createdAt.text = written at created ⊢
  refine (Shape.read_object ⟨some record.id, some record.job, some record.source,
    some record.entityType, some record.entityId, some record.action, some record.status,
    some record.error, some record.createdAt⟩ ?_).trans rfl
  refine (Shape.readMembers_cons rfl rfl (filled record.id.uuid_node _) _).trans ?_
  refine (Shape.readMembers_cons rfl rfl (filled record.job.uuid_node _) _).trans ?_
  refine (Shape.readMembers_cons rfl rfl rfl _).trans ?_
  refine (Shape.readMembers_cons rfl rfl rfl _).trans ?_
  refine (Shape.readMembers_cons rfl rfl (filled (optionalText_node record.entityId) _) _).trans ?_
  refine (Shape.readMembers_cons rfl rfl rfl _).trans ?_
  refine (Shape.readMembers_cons rfl rfl (filled (record.status.status_node 126) _) _).trans ?_
  refine (Shape.readMembers_cons rfl rfl (filled (optionalText_node record.error) _) _).trans ?_
  refine (Shape.readMembers_cons rfl rfl (filled created _) _).trans ?_
  rfl

theorem JournalRecord.decode_bytes {record : JournalRecord} (common : record.createdAt.Common) :
    decode Message.record.read record.json.bytes = .ok record := by
  rw [record.exact_json.decode_bytes, read_node common]

/-! ## Progress -/

theorem JobProgress.exact_json (progress : JobProgress) : Exact progress.json :=
  .object (List.forall_iff_forall_mem.mp
    ⟨.text _, exact_optionalSigned _, .whole _, .whole _⟩)

theorem JobProgress.read_node (progress : JobProgress) :
    Message.progress.read deepest progress.json.node = .ok progress := by
  refine (Shape.read_object ⟨some progress.job, some progress.total, some progress.succeeded,
    some progress.failed⟩ ?_).trans rfl
  refine (Shape.readMembers_cons rfl rfl (filled progress.job.uuid_node _) _).trans ?_
  refine (Shape.readMembers_cons rfl rfl (filled (optionalSigned_node progress.total) _) _).trans ?_
  refine (Shape.readMembers_cons rfl rfl (filled (signed_node progress.succeeded) _) _).trans ?_
  refine (Shape.readMembers_cons rfl rfl (filled (signed_node progress.failed) _) _).trans ?_
  rfl

theorem JobProgress.decode_bytes (progress : JobProgress) :
    decode Message.progress.read progress.json.bytes = .ok progress := by
  rw [progress.exact_json.decode_bytes, progress.read_node]

theorem ProgressDelta.exact_json (delta : ProgressDelta) : Exact delta.json :=
  .object (List.forall_iff_forall_mem.mp
    ⟨.text _, .whole _, .whole _⟩)

theorem ProgressDelta.read_node (delta : ProgressDelta) :
    Message.delta.read deepest delta.json.node = .ok delta := by
  refine (Shape.read_object ⟨some delta.job, some delta.succeeded, some delta.failed⟩ ?_).trans rfl
  refine (Shape.readMembers_cons rfl rfl (filled delta.job.uuid_node _) _).trans ?_
  refine (Shape.readMembers_cons rfl rfl (filled (signed_node delta.succeeded) _) _).trans ?_
  refine (Shape.readMembers_cons rfl rfl (filled (signed_node delta.failed) _) _).trans ?_
  rfl

theorem ProgressDelta.decode_bytes (delta : ProgressDelta) :
    decode Message.delta.read delta.json.bytes = .ok delta := by
  rw [delta.exact_json.decode_bytes, delta.read_node]

/-! ## Chunks -/

theorem ChunkEvent.exact_json {event : ChunkEvent} (exact_payload : Exact event.payload) :
    Exact event.json :=
  .object (List.forall_iff_forall_mem.mp
    ⟨.text _, .text _, .whole _, exact_optionalSigned _, exact_payload⟩)

theorem ChunkEvent.read_node {event : ChunkEvent} (held : Held 126 event.payload)
    (exact_payload : Exact event.payload) :
    Message.chunk.read deepest event.json.node = .ok event := by
  have payload_read := held.json_node exact_payload
  refine (Shape.read_object ⟨some event.job, some event.chunk, some event.recordCount,
    some event.totalRecords, some event.payload⟩ ?_).trans rfl
  refine (Shape.readMembers_cons rfl rfl (filled event.job.uuid_node _) _).trans ?_
  refine (Shape.readMembers_cons rfl rfl rfl _).trans ?_
  refine (Shape.readMembers_cons rfl rfl (filled (unsigned_node event.recordCount) _) _).trans ?_
  refine (Shape.readMembers_cons rfl rfl
    (filled (optionalSigned_node event.totalRecords) _) _).trans ?_
  refine (Shape.readMembers_cons rfl rfl (filled payload_read _) _).trans ?_
  rfl

theorem ChunkEvent.decode_bytes {event : ChunkEvent} (held : Held 126 event.payload)
    (exact_payload : Exact event.payload) :
    decode Message.chunk.read event.json.bytes = .ok event := by
  rw [(exact_json exact_payload).decode_bytes, read_node held exact_payload]

/-- What a chunk carries is read back from the bytes that are forwarded. -/
theorem ChunkEvent.decode_payload {event : ChunkEvent} (held : Held 126 event.payload)
    (exact_payload : Exact event.payload) :
    decode (fun limit node => node.json limit) event.forwarded = .ok event.payload :=
  held.succ.decode_bytes exact_payload

/-! ## Chunks that were received -/

/-- What a draft of a chunk carries is held, once it is read. -/
theorem Message.chunk_keeps (limit : Nat) :
    Message.chunk.Keeps limit fun draft => ∀ payload ∈ draft.payload, Held limit payload := by
  intro field field_mem node fill filled draft kept
  simp only [Message.chunk, List.mem_cons, List.not_mem_nil, or_false] at field_mem
  rcases field_mem with rfl | rfl | rfl | rfl | rfl
  case inr.inr.inr.inr =>
    obtain ⟨payload, payload_read, rfl⟩ := map_eq_ok.mp filled
    rintro _ ⟨⟩
    exact held_of_json payload_read
  all_goals
    obtain ⟨value, -, rfl⟩ := map_eq_ok.mp filled
    exact kept

/-- A chunk carries what its draft carries, and null without a payload. -/
theorem ChunkEvent.payload_eq {draft : Message.ChunkDraft} {event : ChunkEvent}
    (finished : Message.chunk.finish draft = .ok event) :
    event.payload = draft.payload.getD .null := by
  obtain ⟨job, -, finished⟩ := bind_eq_ok.mp finished
  obtain ⟨chunk, -, finished⟩ := bind_eq_ok.mp finished
  obtain ⟨recordCount, -, finished⟩ := bind_eq_ok.mp finished
  obtain rfl := Except.ok.inj finished
  rfl

/-- Whatever text a chunk comes in, what it carries is held. -/
theorem ChunkEvent.held_payload {text : List UInt8} {event : ChunkEvent}
    (received : decode Message.chunk.read text = .ok event) : Held 126 event.payload := by
  obtain ⟨made, event_read, received⟩ := bind_eq_ok.mp received
  split at received
  case isTrue => cases received
  case isFalse =>
    obtain rfl := Except.ok.inj received
    obtain ⟨draft, kept, finished⟩ := (Message.chunk_keeps 126).read (by rintro _ ⟨⟩) event_read
    rw [payload_eq finished]
    cases carried : draft.payload with
    | none => exact .null
    | some payload => exact kept payload carried

/-! ## All messages -/

/-- Every message is read back from its text, a journal record if its time has a year of four places
outside a leap second, and a chunk if its payload holds no doubles and nests at most 126 deep, with
the members of its objects in order and each key once.  The payload is also read back from the bytes
that are forwarded, whatever text the chunk came in. -/
theorem Message.messages_read_back :
    (∀ event : RecordProcessed, decode outcome.read event.json.bytes = .ok event) ∧
    (∀ change : ProgressDelta, decode delta.read change.json.bytes = .ok change) ∧
    (∀ job : JobProgress, decode progress.read job.json.bytes = .ok job) ∧
    (∀ ending : ActionStatus, decode status ending.json.bytes = .ok ending) ∧
    (∀ entry : JournalRecord, entry.createdAt.Common →
      decode record.read entry.json.bytes = .ok entry) ∧
    (∀ event : ChunkEvent, Held 126 event.payload → Exact event.payload →
      decode chunk.read event.json.bytes = .ok event ∧
      decode (fun limit node => node.json limit) event.forwarded = .ok event.payload) ∧
    ∀ (text : List UInt8) (event : ChunkEvent), decode chunk.read text = .ok event →
      Exact event.payload →
      decode (fun limit node => node.json limit) event.forwarded = .ok event.payload := by
  refine ⟨fun event => event.decode_bytes, fun change => change.decode_bytes,
    fun job => job.decode_bytes, fun ending => ending.decode_bytes,
    fun entry common => JournalRecord.decode_bytes common, fun event held exact_payload =>
    ⟨ChunkEvent.decode_bytes held exact_payload, ChunkEvent.decode_payload held exact_payload⟩,
    ?_⟩
  intro text event received exact_payload
  exact ChunkEvent.decode_payload (ChunkEvent.held_payload received) exact_payload

/-- A record of a leap day, down to the nanosecond. -/
def JournalRecord.ofLeapDay : JournalRecord where
  id := .zero
  job := .zero
  source := "row \"1\""
  entityType := "contact"
  entityId := none
  action := "créer"
  status := .error
  error := some "line\nbreak"
  createdAt := ⟨⟨2000, 2, 29⟩, 23, 59, 59, 999999999⟩

/-- A chunk with the greatest number there is and a control character in what it carries. -/
def ChunkEvent.ofExtremes : ChunkEvent where
  job := .zero
  chunk := "c-1"
  recordCount := 18446744073709551615
  totalRecords := some (-9223372036854775808)
  payload := .object
    [("a", .null), ("b", .array [.whole (.ofUnsigned 18446744073709551615), .text "\x00"])]

theorem Message.extremes_read_back :
    JournalRecord.ofLeapDay.createdAt.Common ∧ Held 126 ChunkEvent.ofExtremes.payload ∧
      Exact ChunkEvent.ofExtremes.payload ∧
      decode record.read JournalRecord.ofLeapDay.json.bytes = .ok JournalRecord.ofLeapDay ∧
      decode chunk.read ChunkEvent.ofExtremes.json.bytes = .ok ChunkEvent.ofExtremes ∧
      decode (fun limit node => node.json limit) ChunkEvent.ofExtremes.forwarded =
        .ok ChunkEvent.ofExtremes.payload := by
  have common : JournalRecord.ofLeapDay.createdAt.Common := by
    constructor <;> decide
  have items_held :
      Held 125 (.array [.whole (.ofUnsigned 18446744073709551615), .text "\x00"]) :=
    .array (List.forall_iff_forall_mem.mp ⟨.whole _, .text _⟩)
  have held : Held 126 ChunkEvent.ofExtremes.payload :=
    .object (List.pairwise_pair.mpr (by decide))
      (List.forall_iff_forall_mem.mp ⟨.null, items_held⟩)
  have exact_payload : Exact ChunkEvent.ofExtremes.payload :=
    .object (List.forall_iff_forall_mem.mp
      ⟨.null, .array (List.forall_iff_forall_mem.mp ⟨.whole _, .text _⟩)⟩)
  have received := (messages_read_back.2.2.2.2.2.1 _ held exact_payload).1
  exact ⟨common, held, exact_payload, messages_read_back.2.2.2.2.1 _ common, received,
    messages_read_back.2.2.2.2.2.2 _ _ received exact_payload⟩

end Intake
