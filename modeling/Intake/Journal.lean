import Intake.Instant
import Intake.Uuid

/-!
# The journal of processed records

A record says what happened to one source record.  Its identifier is derived from the source
record and the action within the job, so a completion that arrives twice gives the same record.
-/

namespace Intake

/-- How an action ended. -/
inductive ActionStatus where
  | completed
  | error
  deriving DecidableEq, Repr

namespace ActionStatus

/-- The name of a status. -/
def name : ActionStatus → String
  | completed => "completed"
  | error => "error"

/-- The status of a name. -/
def ofName? (name : String) : Option ActionStatus :=
  if name = "completed" then some completed
  else if name = "error" then some error
  else none

end ActionStatus

/-- What happened to one source record. -/
structure JournalRecord where
  id : Uuid
  job : Uuid
  source : String
  entityType : String
  entityId : Option String
  action : String
  status : ActionStatus
  error : Option String
  createdAt : Instant
  deriving DecidableEq

namespace JournalRecord

/-- The bytes from which the identifier of a record is derived: its parts with a zero byte between
them. -/
def idName (source entityType action : String) (status : ActionStatus) : List UInt8 :=
  source.toUTF8.data.toList ++ 0 :: entityType.toUTF8.data.toList ++
    0 :: action.toUTF8.data.toList ++ 0 :: status.name.toUTF8.data.toList

/-- The identifier of a record. -/
def deriveId (job : Uuid) (source entityType action : String) (status : ActionStatus) : Uuid :=
  job.derive (idName source entityType action status)

/-- A record without an entity and without an error. -/
def make (job : Uuid) (source entityType action : String) (status : ActionStatus)
    (createdAt : Instant) : JournalRecord :=
  { id := deriveId job source entityType action status
    job, source, entityType, action, status, createdAt
    entityId := none
    error := none }

end JournalRecord

/-- Records of one job that wait to be written, in order of arrival. -/
structure JournalBatch where
  records : List JournalRecord
  deriving DecidableEq

namespace JournalBatch

/-- The records of both batches, the later ones last. -/
def merge (earlier later : JournalBatch) : JournalBatch := ⟨earlier.records ++ later.records⟩

end JournalBatch
end Intake
