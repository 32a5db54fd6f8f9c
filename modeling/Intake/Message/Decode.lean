import Intake.Json.Decode
import Intake.Message.Event
import Intake.Progress.Basic

/-!
# Reading messages

For every message a draft of its fields and the shape in which they are read.  A field that may be
absent is optional in the draft twice: whether it was met, and whether it held a value.
-/

namespace Intake
namespace Message

open Json

/-- A field of plain values. -/
private def plain {Draft Value : Type} (name : String) (slot : Draft → Option Value)
    (fill : Value → Draft → Draft) (read : Node → Reading Value) : FieldReader Draft :=
  { name
    defaulted := false
    isFilled := fun draft => (slot draft).isSome
    read := fun _ node => (read node).map fill }

/-- A field that an array may leave out at its end. -/
private def defaulted {Draft : Type} (field : FieldReader Draft) : FieldReader Draft :=
  { field with defaulted := true }

/-! ## Status -/

/-- Reads a status. -/
def status (limit : Nat) (node : Node) : Reading ActionStatus :=
  node.variant ActionStatus.ofName? "\x60completed\x60 or \x60error\x60" limit

/-- A field that holds a status. -/
private def statusField {Draft : Type} (name : String) (slot : Draft → Option ActionStatus)
    (fill : ActionStatus → Draft → Draft) : FieldReader Draft :=
  { name
    defaulted := false
    isFilled := fun draft => (slot draft).isSome
    read := fun limit node => (status limit node).map fill }

/-! ## Chunks -/

/-- The fields of a chunk met so far. -/
structure ChunkDraft where
  job : Option Uuid
  chunk : Option String
  recordCount : Option UInt64
  totalRecords : Option (Option Int64)
  payload : Option Json

/-- How a chunk is read. -/
def chunk : Shape ChunkDraft ChunkEvent where
  name := "ChunkEvent"
  blank := ⟨none, none, none, none, none⟩
  fields :=
    [plain "job_execution_id" (·.job) (fun value draft => { draft with job := some value })
        Node.uuid,
     plain "chunk_id" (·.chunk) (fun value draft => { draft with chunk := some value }) Node.text,
     plain "record_count" (·.recordCount)
        (fun value draft => { draft with recordCount := some value }) Node.unsigned,
     defaulted (plain "total_records" (·.totalRecords)
        (fun value draft => { draft with totalRecords := some value })
        (Node.optional Node.signed)),
     { name := "payload"
       defaulted := true
       isFilled := fun draft => draft.payload.isSome
       read := fun limit node =>
        (node.json limit).map fun value draft => { draft with payload := some value } }]
  finish := fun draft => do
    return {
      job := ← required "job_execution_id" draft.job
      chunk := ← required "chunk_id" draft.chunk
      recordCount := ← required "record_count" draft.recordCount
      totalRecords := draft.totalRecords.join
      payload := draft.payload.getD .null }

/-! ## Outcomes -/

/-- The fields of an outcome met so far. -/
structure OutcomeDraft where
  job : Option Uuid
  source : Option String
  entityType : Option String
  entityId : Option (Option String)
  action : Option String
  status : Option ActionStatus
  error : Option (Option String)

/-- How an outcome is read. -/
def outcome : Shape OutcomeDraft RecordProcessed where
  name := "RecordProcessed"
  blank := ⟨none, none, none, none, none, none, none⟩
  fields :=
    [plain "job_execution_id" (·.job) (fun value draft => { draft with job := some value })
        Node.uuid,
     plain "source_record_id" (·.source) (fun value draft => { draft with source := some value })
        Node.text,
     plain "entity_type" (·.entityType)
        (fun value draft => { draft with entityType := some value }) Node.text,
     defaulted (plain "entity_id" (·.entityId)
        (fun value draft => { draft with entityId := some value }) (Node.optional Node.text)),
     plain "action_type" (·.action) (fun value draft => { draft with action := some value })
        Node.text,
     statusField "status" (·.status) (fun value draft => { draft with status := some value }),
     defaulted (plain "error" (·.error)
        (fun value draft => { draft with error := some value }) (Node.optional Node.text))]
  finish := fun draft => do
    return {
      job := ← required "job_execution_id" draft.job
      source := ← required "source_record_id" draft.source
      entityType := ← required "entity_type" draft.entityType
      entityId := draft.entityId.join
      action := ← required "action_type" draft.action
      status := ← required "status" draft.status
      error := draft.error.join }

/-! ## Journal records -/

/-- The fields of a journal record met so far. -/
structure RecordDraft where
  id : Option Uuid
  job : Option Uuid
  source : Option String
  entityType : Option String
  entityId : Option (Option String)
  action : Option String
  status : Option ActionStatus
  error : Option (Option String)
  createdAt : Option Instant

/-- How a journal record is read. -/
def record : Shape RecordDraft JournalRecord where
  name := "JournalRecord"
  blank := ⟨none, none, none, none, none, none, none, none, none⟩
  fields :=
    [plain "id" (·.id) (fun value draft => { draft with id := some value }) Node.uuid,
     plain "job_execution_id" (·.job) (fun value draft => { draft with job := some value })
        Node.uuid,
     plain "source_record_id" (·.source) (fun value draft => { draft with source := some value })
        Node.text,
     plain "entity_type" (·.entityType)
        (fun value draft => { draft with entityType := some value }) Node.text,
     plain "entity_id" (·.entityId) (fun value draft => { draft with entityId := some value })
        (Node.optional Node.text),
     plain "action_type" (·.action) (fun value draft => { draft with action := some value })
        Node.text,
     statusField "action_status" (·.status)
        (fun value draft => { draft with status := some value }),
     plain "error" (·.error) (fun value draft => { draft with error := some value })
        (Node.optional Node.text),
     plain "created_at" (·.createdAt)
        (fun value draft => { draft with createdAt := some value }) Node.instant]
  finish := fun draft => do
    return {
      id := ← required "id" draft.id
      job := ← required "job_execution_id" draft.job
      source := ← required "source_record_id" draft.source
      entityType := ← required "entity_type" draft.entityType
      entityId := draft.entityId.join
      action := ← required "action_type" draft.action
      status := ← required "action_status" draft.status
      error := draft.error.join
      createdAt := ← required "created_at" draft.createdAt }

/-! ## Progress -/

/-- The fields of progress met so far. -/
structure ProgressDraft where
  job : Option Uuid
  total : Option (Option Int64)
  succeeded : Option Int64
  failed : Option Int64

/-- How progress is read. -/
def progress : Shape ProgressDraft JobProgress where
  name := "JobProgress"
  blank := ⟨none, none, none, none⟩
  fields :=
    [plain "job_execution_id" (·.job) (fun value draft => { draft with job := some value })
        Node.uuid,
     plain "total" (·.total) (fun value draft => { draft with total := some value })
        (Node.optional Node.signed),
     plain "succeeded" (·.succeeded) (fun value draft => { draft with succeeded := some value })
        Node.signed,
     plain "failed" (·.failed) (fun value draft => { draft with failed := some value })
        Node.signed]
  finish := fun draft => do
    return {
      job := ← required "job_execution_id" draft.job
      total := draft.total.join
      succeeded := ← required "succeeded" draft.succeeded
      failed := ← required "failed" draft.failed }

/-- The fields of a delta met so far. -/
structure DeltaDraft where
  job : Option Uuid
  succeeded : Option Int64
  failed : Option Int64

/-- How a delta is read. -/
def delta : Shape DeltaDraft ProgressDelta where
  name := "ProgressDelta"
  blank := ⟨none, none, none⟩
  fields :=
    [plain "job_execution_id" (·.job) (fun value draft => { draft with job := some value })
        Node.uuid,
     plain "success_count_delta" (·.succeeded)
        (fun value draft => { draft with succeeded := some value }) Node.signed,
     plain "error_count_delta" (·.failed)
        (fun value draft => { draft with failed := some value }) Node.signed]
  finish := fun draft => do
    return {
      job := ← required "job_execution_id" draft.job
      succeeded := ← required "success_count_delta" draft.succeeded
      failed := ← required "error_count_delta" draft.failed }

end Message
end Intake
