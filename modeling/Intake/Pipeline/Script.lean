import Intake.Flow.Report
import Intake.Pipeline.Basic

/-!
# Driving a pipeline

A script signals chunks and records at the workers of a pipeline, reads and changes the store, lets
time pass and requests shutdown.  Only the steps that wait let the dispatchers work.
-/

namespace Intake

/-- What a script does next; where it matters, at one of the workers. -/
inductive PipelineStep where
  /-- A chunk arrives. -/
  | chunk (event : ChunkEvent)
  /-- A message of the topic of chunks arrives. -/
  | chunkMessage (text : List UInt8)
  /-- A message of the topic of completions arrives. -/
  | recordMessage (text : List UInt8)
  /-- Records leave, one after the other. -/
  | records (events : List RecordProcessed)
  /-- Submits a mutation of the progress of a job. -/
  | mutate (job : Uuid) (mutation : ProgressMutation)
  /-- Creates a job in the store, at once. -/
  | createProgress (job : Uuid) (total : Option Int64)
  | loadProgress (job : Uuid)
  | journal
  | setUnavailable (unavailable : Bool)
  | setFailing (consumer : Nat) (failing : Bool)
  /-- Lets so many milliseconds pass. -/
  | advance (millis : Nat)
  /-- Waits until a worker has nothing to do. -/
  | wait
  /-- Requests shutdown of a worker. -/
  | shutdown
  /-- Waits until the dispatchers of a worker have exited. -/
  | join
  /-- Asks for the state of the governor. -/
  | flow

/-- What a step of a script gives. -/
inductive PipelineResult where
  | nothing
  | admission (admission : Admission)
  | undecodable
  | progress (result : StoreResult JobProgress)
  | journal (records : List JournalRecord)
  /-- Whether what was waited for came. -/
  | waited (idle : Bool)
  /-- Whether the dispatchers of progress and journal have exited. -/
  | joined (progress journal : Bool)
  | flow (governor : Governor)

namespace Pipeline

/-- The longest wait: ten minutes. -/
def patience : Nat := 600000

/-- Takes over the effects of a signal at a worker. -/
def effect (pipeline : Pipeline) (index : Nat) (worker : Worker) (signals : Signals)
    (effects : Effects) : Pipeline :=
  effects.handovers.foldl (handOver index)
    ((pipeline.setWorker index { worker with signals }).note effects.notices)

/-- A chunk arrives at a worker. -/
def chunk (pipeline : Pipeline) (index : Nat) (worker : Worker) (event : ChunkEvent) :
    PipelineResult × Pipeline :=
  let (admission, signals, effects) := worker.signals.chunkReceived event
  (.admission admission, pipeline.effect index worker signals effects)

/-- A record leaves a worker. -/
def record (index : Nat) (pipeline : Pipeline) (event : RecordProcessed) : Pipeline :=
  match pipeline.worker? index with
  | none => pipeline
  | some worker =>
      let (signals, effects) := worker.signals.recordProcessed event .epoch
      pipeline.effect index worker signals effects

/-- The pipeline after an operation of the store. -/
def withStore {Value : Type} (pipeline : Pipeline) (outcome : StoreResult Value × Store) :
    StoreResult Value × Pipeline :=
  (outcome.1, { pipeline with site := { pipeline.site with store := outcome.2 } })

/-- The journal by job, in the stored order within each. -/
def journalByJob (pipeline : Pipeline) : List JournalRecord :=
  pipeline.site.store.journal.mergeSort fun left right => left.job.le right.job

/-- Whether someone who waits for the progress of a worker is served. -/
def progressServed (index : Nat) (pipeline : Pipeline) : Bool :=
  (pipeline.worker? index).all (·.progress.isServed 0)

/-- Whether someone who waits for the journal of a worker is served. -/
def journalServed (index : Nat) (pipeline : Pipeline) : Bool :=
  (pipeline.worker? index).all (·.journal.isServed 0)

/-- Someone enlists and looks at the progress of a worker. -/
def awaitProgress (pipeline : Pipeline) (index : Nat) : Pipeline :=
  (pipeline.actProgress index (.enlist 0)).actProgress index (.look 0)

/-- Someone enlists and looks at the journal of a worker. -/
def awaitJournal (pipeline : Pipeline) (index : Nat) : Pipeline :=
  (pipeline.actJournal index (.enlist 0)).actJournal index (.look 0)

/-- Waits until a worker has nothing to do: first its progress, then its journal. -/
def wait (pipeline : Pipeline) (index : Nat) : Except Overflow (Bool × Pipeline) := do
  let limit := pipeline.now + patience
  let (served, pipeline) ←
    (pipeline.awaitProgress index).passUntil (progressServed index) limit
  if !served then
    return (false, pipeline.actProgress index (.leave 0))
  let (served, pipeline) ←
    ((pipeline.awaitProgress index).awaitJournal index).passUntil (journalServed index) limit
  if served then return (true, pipeline.awaitJournal index)
  else return (false, pipeline.actJournal index (.leave 0))

/-- Waits until the dispatchers of a worker have exited, one after the other. -/
def join (pipeline : Pipeline) (index : Nat) : Except Overflow (Bool × Bool × Pipeline) := do
  let progressExited (pipeline : Pipeline) :=
    (pipeline.worker? index).all (·.progress.hasExited)
  let journalExited (pipeline : Pipeline) := (pipeline.worker? index).all (·.journal.hasExited)
  let (progress, pipeline) ← pipeline.passUntil progressExited (pipeline.now + patience)
  let (journal, pipeline) ← pipeline.passUntil journalExited (pipeline.now + patience)
  return (progress, journal, pipeline)

/-- Takes a step of a script at a worker. -/
def stepAt (pipeline : Pipeline) (index : Nat) (worker : Worker) :
    PipelineStep → Except Overflow (PipelineResult × Pipeline)
  | .chunk event => .ok (pipeline.chunk index worker event)
  | .chunkMessage text =>
      match Json.decode Message.chunk.read text with
      | .error _ => .ok (.undecodable, pipeline)
      | .ok event => .ok (pipeline.chunk index worker event)
  | .recordMessage text =>
      match Json.decode Message.outcome.read text with
      | .error _ => .ok (.undecodable, pipeline)
      | .ok event => .ok (.nothing, pipeline.record index event)
  | .records events => .ok (.nothing, events.foldl (record index) pipeline)
  | .mutate job mutation => .ok (.nothing, pipeline.handOver index (.progress job mutation))
  | .createProgress job total =>
      let (result, pipeline) := pipeline.withStore (pipeline.site.store.createProgress job total)
      .ok (.progress result, pipeline)
  | .loadProgress job =>
      let (result, pipeline) := pipeline.withStore (pipeline.site.store.loadProgress job)
      .ok (.progress result, pipeline)
  | .journal => .ok (.journal pipeline.journalByJob, pipeline)
  | .setUnavailable unavailable =>
      let store := pipeline.site.store.setUnavailable unavailable
      .ok (.nothing, { pipeline with site := { pipeline.site with store } })
  | .setFailing consumer failing =>
      let governor := worker.signals.governor
      let fleet := governor.fleet.setFailing (consumerName governor.topic consumer) failing
      let signals := { worker.signals with governor := { governor with fleet } }
      .ok (.nothing, pipeline.setWorker index { worker with signals })
  | .advance millis => do
      return (.nothing, ← pipeline.passTo (pipeline.now + millis))
  | .wait => do
      let (idle, pipeline) ← pipeline.wait index
      return (.waited idle, pipeline)
  | .shutdown => .ok (.nothing, pipeline.cancel index)
  | .join => do
      let (progress, journal, pipeline) ← pipeline.join index
      return (.joined progress journal, pipeline)
  | .flow => .ok (.flow worker.signals.governor, pipeline)

/-- Takes a step of a script. -/
def step (pipeline : Pipeline) (index : Nat) (next : PipelineStep) :
    Except Overflow (PipelineResult × Pipeline) :=
  match pipeline.worker? index with
  | none => .ok (.nothing, pipeline)
  | some worker => pipeline.stepAt index worker next

end Pipeline
end Intake
