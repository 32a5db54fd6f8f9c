import Intake.Message.Decode
import Intake.Pipeline.SlowStore
import Intake.Signals

/-!
# Pipelines

A pipeline has workers that share one store and one clock.  Each worker has its own governor,
tracker and dispatchers.  A dispatcher works when it was woken or when one of its timers is due:
dispatchers that were woken work in the order in which that happened, and of those with timers due
at one time the one whose timer was set first goes first.
-/

namespace Intake

open Dispatch

/-- The dispatcher of progress of a worker. -/
abbrev ProgressLane := Lane Uuid ProgressMutation (WriteRest ProgressMutation JobProgress)

/-- The dispatcher of the journal of a worker. -/
abbrev JournalLane := Lane Uuid JournalBatch (WriteRest JournalBatch Unit)

/-- A worker. -/
structure Worker where
  signals : Signals
  progress : ProgressLane
  journal : JournalLane

/-- The dispatchers of a worker. -/
inductive Desk where
  | progress
  | journal
  deriving DecidableEq, Repr

/-- Workers with their store and their clock. -/
structure Pipeline where
  site : SlowStore
  /-- Whether the log tells that progress is lost. -/
  logsLostProgress : Bool
  workers : List Worker
  now : Nat
  /-- The ticket of the next timer. -/
  ticket : Nat
  /-- The dispatchers that were woken, first come first. -/
  woken : List (Nat × Desk)

namespace Pipeline

/-- The consumers of a worker. -/
def consumerName (topic : String) (index : Nat) : String := topic ++ "-" ++ toString index

/-- A worker with so many consumers. -/
def createWorker (flow : FlowSettings) (topic : String) (consumers : Nat)
    (tracker : ChunkTracker) (progress journal : Policy) : Worker :=
  let fleet := (List.range consumers).foldl
    (fun fleet index => fleet.register topic (consumerName topic index)) Fleet.empty
  { signals := ⟨.create flow topic fleet, tracker⟩
    progress := Lane.create progress
    journal := Lane.create journal }

/-- A worker by its index. -/
def worker? (pipeline : Pipeline) (index : Nat) : Option Worker := pipeline.workers[index]?

/-- Replaces a worker. -/
def setWorker (pipeline : Pipeline) (index : Nat) (worker : Worker) : Pipeline :=
  { pipeline with workers := pipeline.workers.set index worker }

/-- Adds notices. -/
def note (pipeline : Pipeline) (notices : List Notice) : Pipeline :=
  { pipeline with site := pipeline.site.note notices }

/-- What was noticed since this was last asked. -/
def notices (pipeline : Pipeline) : List Notice := pipeline.site.notices.reverse

/-- The pipeline with its notices forgotten. -/
def forget (pipeline : Pipeline) : Pipeline :=
  { pipeline with site := { pipeline.site with notices := [] } }

/-- How progress is written. -/
def progressWriting (pipeline : Pipeline) : SlowStore.Writing ProgressMutation JobProgress :=
  SlowStore.progressWriting pipeline.logsLostProgress

/-! ## Dispatchers at work -/

/-- A dispatcher of progress at work. -/
def progressTurn (pipeline : Pipeline) (worker : Worker) :
    Turn Uuid ProgressMutation (WriteRest ProgressMutation JobProgress) SlowStore :=
  ⟨worker.progress, pipeline.site, pipeline.ticket⟩

/-- A dispatcher of the journal at work. -/
def journalTurn (pipeline : Pipeline) (worker : Worker) :
    Turn Uuid JournalBatch (WriteRest JournalBatch Unit) SlowStore :=
  ⟨worker.journal, pipeline.site, pipeline.ticket⟩

/-- The pipeline after a dispatcher of progress worked. -/
def withProgress (pipeline : Pipeline) (index : Nat) (worker : Worker)
    (turn : Turn Uuid ProgressMutation (WriteRest ProgressMutation JobProgress) SlowStore) :
    Pipeline :=
  { pipeline.setWorker index { worker with progress := turn.lane } with
    site := turn.world, ticket := turn.ticket }

/-- The pipeline after a dispatcher of the journal worked. -/
def withJournal (pipeline : Pipeline) (index : Nat) (worker : Worker)
    (turn : Turn Uuid JournalBatch (WriteRest JournalBatch Unit) SlowStore) : Pipeline :=
  { pipeline.setWorker index { worker with journal := turn.lane } with
    site := turn.world, ticket := turn.ticket }

/-- Takes a step of a dispatcher of progress. -/
def actProgress (pipeline : Pipeline) (index : Nat) (action : Action Uuid ProgressMutation) :
    Pipeline :=
  match pipeline.worker? index with
  | none => pipeline
  | some worker =>
      pipeline.withProgress index worker
        ((pipeline.progressTurn worker).act (SlowStore.backend pipeline.progressWriting)
          pipeline.now action)

/-- Takes a step of a dispatcher of the journal. -/
def actJournal (pipeline : Pipeline) (index : Nat) (action : Action Uuid JournalBatch) :
    Pipeline :=
  match pipeline.worker? index with
  | none => pipeline
  | some worker =>
      pipeline.withJournal index worker
        ((pipeline.journalTurn worker).act (SlowStore.backend SlowStore.journalWriting)
          pipeline.now action)

/-- Wakes a dispatcher. -/
def wake (pipeline : Pipeline) (index : Nat) (desk : Desk) : Pipeline :=
  if pipeline.woken.contains (index, desk) then pipeline
  else { pipeline with woken := pipeline.woken ++ [(index, desk)] }

/-- Whether a dispatcher was woken and has not noticed it yet. -/
def hasPermit (pipeline : Pipeline) (index : Nat) (desk : Desk) : Bool :=
  match pipeline.worker? index, desk with
  | none, _ => false
  | some worker, .progress => worker.progress.drain.permit
  | some worker, .journal => worker.journal.drain.permit

/-- Wakes a dispatcher that has something new to do. -/
def wakeIfPermitted (pipeline : Pipeline) (index : Nat) (desk : Desk) : Pipeline :=
  if pipeline.hasPermit index desk then pipeline.wake index desk else pipeline

/-- Hands a mutation to a dispatcher of a worker. -/
def handOver (index : Nat) (pipeline : Pipeline) : Handover → Pipeline
  | .progress job mutation =>
      (pipeline.actProgress index (.submit job mutation)).wakeIfPermitted index .progress
  | .journal job batch =>
      (pipeline.actJournal index (.submit job batch)).wakeIfPermitted index .journal

/-- Requests shutdown of a worker. -/
def cancel (pipeline : Pipeline) (index : Nat) : Pipeline :=
  (((pipeline.actProgress index .cancel).actJournal index .cancel).wake index .progress).wake index
    .journal

/-- Lets a dispatcher work until it has to wait. -/
def work (pipeline : Pipeline) (index : Nat) (desk : Desk) : Except Overflow Pipeline :=
  match pipeline.worker? index, desk with
  | none, _ => .ok pipeline
  | some worker, .progress => do
      let turn ← (pipeline.progressTurn worker).run
        (SlowStore.backend pipeline.progressWriting) pipeline.now
      return pipeline.withProgress index worker turn
  | some worker, .journal => do
      let turn ← (pipeline.journalTurn worker).run
        (SlowStore.backend SlowStore.journalWriting) pipeline.now
      return pipeline.withJournal index worker turn

/-- Lets all dispatchers work that were woken. -/
def settle (pipeline : Pipeline) : Except Overflow Pipeline :=
  pipeline.woken.foldlM (fun pipeline (index, desk) => pipeline.work index desk)
    { pipeline with woken := [] }

/-! ## Time -/

/-- When the next timer is due. -/
def nextDue (pipeline : Pipeline) : Option Nat :=
  (pipeline.workers.flatMap fun worker =>
    worker.progress.nextDue.toList ++ worker.journal.nextDue.toList).min?

/-- The dispatchers of a worker with timers that are due, each with the ticket of its first one. -/
def dueDesks (now index : Nat) (worker : Worker) : List (Nat × Nat × Desk) :=
  ((worker.progress.dueTicket now).map fun ticket => (ticket, index, Desk.progress)).toList ++
    ((worker.journal.dueTicket now).map fun ticket => (ticket, index, Desk.journal)).toList

/-- Moves the clock, and wakes the dispatchers with timers that are due. -/
def moveClock (pipeline : Pipeline) (now : Nat) : Pipeline :=
  let due := (pipeline.workers.zipIdx.flatMap fun (worker, index) => dueDesks now index worker)
  let ordered := due.mergeSort fun left right => left.1 ≤ right.1
  ordered.foldl (fun pipeline (_, index, desk) => pipeline.wake index desk)
    { pipeline with now }

/-- Lets time pass until a condition holds or a time has come, from one timer to the next. -/
def passFrom (until? : Pipeline → Bool) (limit : Nat) :
    Nat → Pipeline → Except Overflow Pipeline
  | 0, pipeline => .ok pipeline
  | fuel + 1, pipeline => do
      let pipeline ← pipeline.settle
      if until? pipeline then return pipeline
      match pipeline.nextDue with
      | none => return { pipeline with now := limit }
      | some due =>
          if due ≤ limit then passFrom until? limit fuel (pipeline.moveClock due)
          else return { pipeline with now := limit }

/-- More timers than a pipeline sets unless it never rests. -/
def manyTimers : Nat := 1000000

/-- Lets time pass until a time has come. -/
def passTo (limit : Nat) (pipeline : Pipeline) : Except Overflow Pipeline :=
  passFrom (fun _ => false) limit manyTimers pipeline

/-- Waits for a condition, and tells whether it came.  What comes exactly at the end of the wait is
too late. -/
def passUntil (until? : Pipeline → Bool) (limit : Nat) (pipeline : Pipeline) :
    Except Overflow (Bool × Pipeline) := do
  let pipeline ← passFrom until? (limit - 1) manyTimers pipeline
  if until? pipeline then return (true, pipeline)
  else return (false, ← pipeline.passTo limit)

end Pipeline
end Intake
