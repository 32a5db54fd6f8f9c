import Intake.Message.Event
import Intake.Progress.Basic

/-!
# Writing messages

Every message is an object with all its fields in order; what is absent is null.
-/

namespace Intake

/-- An identifier as a string. -/
def Uuid.json (uuid : Uuid) : Json := .text uuid.text

/-- A status as its name. -/
def ActionStatus.json (status : ActionStatus) : Json := .text status.name

/-- A chunk as an object. -/
def ChunkEvent.json (event : ChunkEvent) : Json :=
  .object
    [("job_execution_id", event.job.json),
     ("chunk_id", .text event.chunk),
     ("record_count", .whole (.ofUnsigned event.recordCount)),
     ("total_records", Json.optionalSigned event.totalRecords),
     ("payload", event.payload)]

/-- The bytes in which the payload of a chunk is passed on. -/
def ChunkEvent.forwarded (event : ChunkEvent) : List UInt8 := event.payload.bytes

/-- An outcome as an object. -/
def RecordProcessed.json (event : RecordProcessed) : Json :=
  .object
    [("job_execution_id", event.job.json),
     ("source_record_id", .text event.source),
     ("entity_type", .text event.entityType),
     ("entity_id", Json.optionalText event.entityId),
     ("action_type", .text event.action),
     ("status", event.status.json),
     ("error", Json.optionalText event.error)]

/-- A journal record as an object. -/
def JournalRecord.json (record : JournalRecord) : Json :=
  .object
    [("id", record.id.json),
     ("job_execution_id", record.job.json),
     ("source_record_id", .text record.source),
     ("entity_type", .text record.entityType),
     ("entity_id", Json.optionalText record.entityId),
     ("action_type", .text record.action),
     ("action_status", record.status.json),
     ("error", Json.optionalText record.error),
     ("created_at", .text record.createdAt.text)]

/-- Progress as an object. -/
def JobProgress.json (progress : JobProgress) : Json :=
  .object
    [("job_execution_id", progress.job.json),
     ("total", Json.optionalSigned progress.total),
     ("succeeded", .whole (.ofSigned progress.succeeded)),
     ("failed", .whole (.ofSigned progress.failed))]

/-- A delta as an object. -/
def ProgressDelta.json (delta : ProgressDelta) : Json :=
  .object
    [("job_execution_id", delta.job.json),
     ("success_count_delta", .whole (.ofSigned delta.succeeded)),
     ("error_count_delta", .whole (.ofSigned delta.failed))]

end Intake
