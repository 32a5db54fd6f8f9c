import Intake.Failure
import Intake.Journal
import Intake.KeyMap
import Intake.Progress.Mutation
import Intake.Telemetry

/-!
# A store in memory

The store holds the progress of jobs and the journal.  It counts its writes and can be made
unavailable, and then every call fails.  An operation ends with a value, with a failure of the
store, or with an overflow; the store that it leaves behind is part of its result in all cases.
-/

namespace Intake

/-- Progress by job, the journal in the order in which it was written, and what was counted. -/
structure Store where
  progress : KeyMap Uuid JobProgress
  journal : List JournalRecord
  unavailable : Bool
  deltaWrites : Nat
  fullWrites : Nat
  journalWrites : Nat

/-- How an operation ended. -/
inductive StoreResult (Value : Type) where
  | ok (value : Value)
  | failed (failure : StoreFailure)
  | overflow (cause : Overflow)

namespace Store

/-- The store that holds nothing. -/
def empty : Store := ⟨.empty, [], false, 0, 0, 0⟩

instance : Inhabited Store := ⟨empty⟩

/-- The failure of a store that is unavailable. -/
def outage : StoreFailure := .transient "memory store is unavailable"

/-- Makes the store unavailable, or available again. -/
def setUnavailable (store : Store) (unavailable : Bool) : Store := { store with unavailable }

/-- Creates the progress of a job, or sets its total if that is known. -/
def createProgress (store : Store) (job : Uuid) (total : Option Int64) :
    StoreResult JobProgress × Store :=
  if store.unavailable then (.failed outage, store)
  else
    let row := (store.progress.get? job).getD (.start job total)
    let row := if total.isSome then { row with total } else row
    (.ok row, { store with progress := store.progress.insert job row })

/-- The progress of a job. -/
def loadProgress (store : Store) (job : Uuid) : StoreResult JobProgress × Store :=
  if store.unavailable then (.failed outage, store)
  else
    match store.progress.get? job with
    | some row => (.ok row, store)
    | none => (.failed (.notFound job), store)

/-- Adds a delta to the progress of its job, one counter after the other. -/
def applyDelta (store : Store) (delta : ProgressDelta) : StoreResult JobProgress × Store :=
  if store.unavailable then (.failed outage, store)
  else
    let store := { store with deltaWrites := store.deltaWrites + 1 }
    match store.progress.get? delta.job with
    | none => (.failed (.notFound delta.job), store)
    | some row =>
        match Counter.add row.succeeded delta.succeeded with
        | .error cause => (.overflow cause, store)
        | .ok succeeded =>
            let row := { row with succeeded }
            let store := { store with progress := store.progress.insert delta.job row }
            match Counter.add row.failed delta.failed with
            | .error cause => (.overflow cause, store)
            | .ok failed =>
                let row := { row with failed }
                (.ok row, { store with progress := store.progress.insert delta.job row })

/-- Applies a mutation to the progress of a job; a missing job must be created by it. -/
def updateProgress (store : Store) (job : Uuid) (mutation : ProgressMutation) :
    StoreResult JobProgress × Store :=
  if store.unavailable then (.failed outage, store)
  else
    let store := { store with fullWrites := store.fullWrites + 1 }
    let row? :=
      match store.progress.get? job with
      | some row => some row
      | none => if mutation.createsJob then some (.start job none) else none
    match row? with
    | none => (.failed (.notFound job), store)
    | some row =>
        match mutation.apply row with
        | .error cause => (.overflow cause, store)
        | .ok row => (.ok row, { store with progress := store.progress.insert job row })

/-- The refusal of a record whose job is not known. -/
def unknownJob (record : JournalRecord) : StoreFailure :=
  .permanent ("journal record " ++ record.id.text ++ " references unknown job execution " ++
    record.job.text)

/-- Adds a record to the journal unless its identifier is there. -/
def addRecord (journal : List JournalRecord) (record : JournalRecord) : List JournalRecord :=
  if journal.any (·.id == record.id) then journal else journal ++ [record]

/-- Writes records to the journal, all of them or none. -/
def saveJournal (store : Store) (records : List JournalRecord) : StoreResult Unit × Store :=
  if store.unavailable then (.failed outage, store)
  else
    let store := { store with journalWrites := store.journalWrites + 1 }
    match records.find? fun record => !store.progress.contains record.job with
    | some record => (.failed (unknownJob record), store)
    | none => (.ok (), { store with journal := records.foldl addRecord store.journal })

/-! ## Persisting -/

/-- The counter of jobs with more processed records than their total. -/
def exceededSeries : Series := ⟨"import_progress_exceeds_total", []⟩

/-- What is reported when a job has more processed records than its total. -/
def exceededNotices : List Notice :=
  [.logged .warning "job reports more processed records than its total", .counted exceededSeries]

/-- The result of writing progress: the notices about the written row. -/
def reviewed : StoreResult JobProgress → StoreResult (List Notice)
  | .ok row =>
      match row.exceedsTotal with
      | .ok true => .ok exceededNotices
      | .ok false => .ok []
      | .error cause => .overflow cause
  | .failed failure => .failed failure
  | .overflow cause => .overflow cause

/-- Writes a mutation of a job: a lone delta is added, anything else is applied to the row. -/
def writeProgress (store : Store) (job : Uuid) (mutation : ProgressMutation) :
    StoreResult JobProgress × Store :=
  match mutation.asDelta with
  | some delta => store.applyDelta delta
  | none => store.updateProgress job mutation

/-- Persists a mutation of a job. -/
def persistProgress (store : Store) (job : Uuid) (mutation : ProgressMutation) :
    StoreResult (List Notice) × Store :=
  let (result, store) := store.writeProgress job mutation
  (reviewed result, store)

/-- Persists a batch of journal records. -/
def persistJournal (store : Store) (batch : JournalBatch) : StoreResult Unit × Store :=
  store.saveJournal batch.records

end Store
end Intake
