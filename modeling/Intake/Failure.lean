import Intake.Span
import Intake.Uuid

/-!
# Failures

What can go wrong in storage, at the broker and in the settings, each with its report and, where
it matters, whether trying again can help.
-/

namespace Intake

/-! ## Storage -/

/-- What a database reports. -/
inductive DatabaseFault where
  | rowNotFound
  | columnUndecodable (column : String)
  | columnNotFound (column : String)
  | typeNotFound (name : String)
  | undecodable (detail : String)
  /-- A refusal with its state code, if it has one. -/
  | refused (detail : String) (code : Option String)
  | poolTimedOut
  | poolClosed
  | workerCrashed
  | protocol (detail : String)
  | configuration (detail : String)
  | columnOutOfBounds (index length : Nat)
  deriving DecidableEq, Repr

namespace DatabaseFault

/-- The report. -/
def message : DatabaseFault → String
  | rowNotFound => "no rows returned by a query that expected to return at least one row"
  | columnUndecodable column =>
      "error occurred while decoding column " ++ column ++ ": bad value"
  | columnNotFound column => "no column found for name: " ++ column
  | typeNotFound name => "type named " ++ name ++ " not found"
  | undecodable detail => "error occurred while decoding: " ++ detail
  | refused detail _ => "error returned from database: " ++ detail
  | poolTimedOut => "pool timed out while waiting for an open connection"
  | poolClosed => "attempted to acquire a connection on a closed pool"
  | workerCrashed => "attempted to communicate with a crashed background worker"
  | protocol detail => "encountered unexpected or invalid data: " ++ detail
  | configuration detail => "error with configuration: " ++ detail
  | columnOutOfBounds index length =>
      "column index out of bounds: the len is " ++ toString length ++
        ", but the index is " ++ toString index

/-- State codes of refusals that come back every time: a reference to a missing row, a failed
check, and a number out of range. -/
def lastingCodes : List String := ["23503", "23514", "22003"]

/-- Whether the same query can succeed later. -/
def isRetryable : DatabaseFault → Bool
  | rowNotFound | columnUndecodable _ | columnNotFound _ | typeNotFound _ | undecodable _ => false
  | refused _ (some code) => !lastingCodes.contains code
  | _ => true

end DatabaseFault

/-- What a store reports. -/
inductive StoreFailure where
  /-- The job has no progress. -/
  | notFound (job : Uuid)
  | permanent (detail : String)
  | transient (detail : String)
  | query (command : String) (fault : DatabaseFault)
  deriving DecidableEq

namespace StoreFailure

/-- The report. -/
def message : StoreFailure → String
  | notFound job => "no progress found for job execution " ++ job.text
  | permanent detail => "storage rejected the write: " ++ detail
  | transient detail => "storage is temporarily unavailable: " ++ detail
  | query command fault => command ++ " query failed with: " ++ fault.message

/-- Whether writing the same data again can succeed later. -/
def isRetryable : StoreFailure → Bool
  | notFound _ | permanent _ => false
  | transient _ => true
  | query _ fault => fault.isRetryable

end StoreFailure

/-! ## Flushes -/

/-- Why one attempt to persist failed. -/
inductive FlushFailure where
  | transient (detail : String)
  | permanent (detail : String)
  | timeout (after : Span)
  deriving DecidableEq, Repr

namespace FlushFailure

/-- The report. -/
def message : FlushFailure → String
  | transient detail => "persistence failed and can be retried: " ++ detail
  | permanent detail => "persistence failed permanently: " ++ detail
  | timeout after => "persistence timed out after " ++ after.text

/-- Whether the same mutation is worth another attempt. -/
def isRetryable : FlushFailure → Bool
  | permanent _ => false
  | _ => true

/-- The failure of an attempt that failed in the store. -/
def ofStore (failure : StoreFailure) : FlushFailure :=
  if failure.isRetryable then .transient failure.message else .permanent failure.message

end FlushFailure

/-! ## Broker and settings -/

/-- What the broker reports. -/
inductive BrokerFault where
  | subscription (detail : String)
  | canceled
  | noMessage
  | partitionEnd (partition : Int)
  | pauseResume (detail : String)
  | queueFull
  deriving DecidableEq, Repr

/-- The report. -/
def BrokerFault.message : BrokerFault → String
  | subscription detail => "Subscription error: " ++ detail
  | canceled => "KafkaError (Client dropped)"
  | noMessage => "No message received within the given poll interval"
  | partitionEnd partition => "Partition EOF: " ++ toString partition
  | pauseResume detail => "Pause/resume error: " ++ detail
  | queueFull => "Message production error: QueueFull (Local: Queue full)"

/-- Why a consumer cannot be paused or resumed. -/
inductive ConsumerFailure where
  | broker (fault : BrokerFault)
  | gone (name : String)
  deriving DecidableEq, Repr

/-- The report. -/
def ConsumerFailure.message : ConsumerFailure → String
  | broker fault => "kafka error: " ++ fault.message
  | gone name => "consumer " ++ name ++ " is gone"

/-- Why settings cannot be used. -/
inductive SettingsFailure where
  /-- The low watermark is not below the high one. -/
  | invalidWatermarks (high low : UInt64)
  /-- A setting that must not be zero is. -/
  | zeroValue (name : String)
  deriving DecidableEq, Repr

/-- The report. -/
def SettingsFailure.message : SettingsFailure → String
  | invalidWatermarks high low =>
      "flow control low watermark (" ++ toString low.toNat ++
        ") must be lower than the high watermark (" ++ toString high.toNat ++ ")"
  | zeroValue name => name ++ " must be greater than zero"

/-- Why a worker does not start. -/
inductive WorkerFailure where
  | settings (failure : SettingsFailure)
  | broker (fault : BrokerFault)
  | store (failure : StoreFailure)
  deriving DecidableEq

/-- The report. -/
def WorkerFailure.message : WorkerFailure → String
  | settings failure => "invalid configuration: " ++ failure.message
  | broker fault => "failed to set up kafka client: " ++ fault.message
  | store failure => "failed to set up storage: " ++ failure.message

end Intake
