import Intake.Journal
import Intake.Json.Value

/-!
# Events

What arrives over the broker: a chunk of an import job, and the outcome of one record.
-/

namespace Intake

/-- A slice of an import job. -/
structure ChunkEvent where
  job : Uuid
  chunk : String
  recordCount : UInt64
  /-- How many records the whole job holds, on the chunk that knows. -/
  totalRecords : Option Int64
  payload : Json

/-- The outcome of processing one record. -/
structure RecordProcessed where
  job : Uuid
  source : String
  entityType : String
  entityId : Option String
  action : String
  status : ActionStatus
  error : Option String
  deriving DecidableEq

/-- The journal record of an outcome. -/
def RecordProcessed.journalRecord (event : RecordProcessed) (createdAt : Instant) :
    JournalRecord :=
  { JournalRecord.make event.job event.source event.entityType event.action event.status
      createdAt with
    entityId := event.entityId
    error := event.error }

end Intake
