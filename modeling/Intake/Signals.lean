import Intake.ChunkTracker
import Intake.Flow.Governor
import Intake.Message.Event
import Intake.Progress.Mutation

/-!
# Signals of a pipeline

A worker signals every chunk that arrives and every record that leaves.  Each signal moves the count
of records in flight and hands mutations to the dispatchers of progress and journal.

Every delivery of a chunk is counted when it arrives.  A repeated delivery is then taken back out
of the count right away, so it leaves the count where it was.
-/

namespace Intake

/-- The parts of a worker that signals go through. -/
structure Signals where
  governor : Governor
  tracker : ChunkTracker

/-- A mutation handed to a dispatcher. -/
inductive Handover where
  | progress (job : Uuid) (mutation : ProgressMutation)
  | journal (job : Uuid) (batch : JournalBatch)

/-- What a signal did besides changing its parts. -/
structure Effects where
  notices : List Notice
  handovers : List Handover

namespace Signals

/-- The counter of chunks by admission. -/
def admissionSeries : Admission → Series
  | .fresh => ⟨"import_flow_chunks_admitted", []⟩
  | .duplicate => ⟨"import_flow_chunks_duplicated", []⟩

/-- Raises a signal at the governor. -/
def raise (signals : Signals) (signal : Signal) : Signals × List Notice :=
  let (governor, events) := signals.governor.raise signal
  ({ signals with governor }, events.flatMap Governor.Event.notices)

/-- A chunk arrived.  The first chunk of a job may come before anything else has created the job. -/
def chunkReceived (signals : Signals) (event : ChunkEvent) : Admission × Signals × Effects :=
  let (signals, counted) := signals.raise (.admitted event.recordCount)
  let (admission, tracker) := signals.tracker.observe event.job event.chunk
  let signals := { signals with tracker }
  let admitted := Notice.counted (admissionSeries admission)
  match admission with
  | .fresh =>
      (.fresh, signals,
        ⟨counted ++ [admitted], [.progress event.job (.create event.totalRecords)]⟩)
  | .duplicate =>
      let (signals, corrected) := signals.raise (.duplicate event.recordCount)
      (.duplicate, signals, ⟨counted ++ admitted :: corrected, []⟩)

/-- A record left the pipeline. -/
def recordProcessed (signals : Signals) (event : RecordProcessed) (createdAt : Instant) :
    Signals × Effects :=
  let (signals, notices) := signals.raise .completed
  (signals,
    { notices
      handovers :=
        [.progress event.job (.delta (.completion event.job (event.status == .completed))),
         .journal event.job ⟨[event.journalRecord createdAt]⟩] })

end Signals
end Intake
