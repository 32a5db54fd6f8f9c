import Intake.Dispatch.Table

/-!
# The drain loop

A drain loop starts flushes as long as keys wait and places are free, and then parks until a flush
is over, until it is woken, or until shutdown is requested.  While it is parked its flushes make
their calls.  A failed call is repeated after a wait unless the failure is final or shutdown was
requested.  After shutdown the loop closes the table, flushes what is left, and exits.

`Drain.step?` is the relation of single steps: it says which actions are possible in a state, what
they change and what they report.  Submitters, the loop, its flushes and those who wait for it to
be idle act in any order.
-/

namespace Intake
namespace Dispatch

/-- How far a flush is. -/
inductive Phase where
  /-- Its next call is to be made. -/
  | due
  /-- A call is under way. -/
  | calling
  /-- The last call failed and is repeated later. -/
  | backingOff (failure : FlushFailure)
  | over (verdict : Verdict)
  deriving DecidableEq, Repr

/-- A mutation of a key that is being flushed. -/
structure Flush (Key Mutation : Type) where
  key : Key
  mutation : Mutation
  /-- How many calls failed. -/
  failures : Nat
  phase : Phase
  deriving DecidableEq, Repr

/-- Where the loop is. -/
inductive Stage where
  /-- It starts flushes. -/
  | filling
  /-- It waits for something to happen. -/
  | parked
  | exited
  deriving DecidableEq, Repr

/-- Someone who waits until the table is idle.  He is enlisted for the next notification before he
looks at the table. -/
structure Waiter where
  /-- He has found the table busy. -/
  looked : Bool
  /-- He was notified since he was enlisted. -/
  notified : Bool
  deriving DecidableEq, Repr

/-- The state of a dispatcher. -/
structure Drain (Key Mutation : Type) where
  table : Table Key Mutation
  /-- The flushes in progress, oldest first. -/
  flushes : List (Flush Key Mutation)
  stage : Stage
  /-- Shutdown was requested. -/
  cancelled : Bool
  /-- The loop has noticed that shutdown was requested. -/
  draining : Bool
  /-- The loop was woken and has not noticed it yet. -/
  permit : Bool
  waiters : KeyMap Nat Waiter

/-- What can happen. -/
inductive Action (Key Mutation : Type) where
  /-- A mutation is submitted. -/
  | submit (key : Key) (mutation : Mutation)
  /-- Shutdown is requested. -/
  | cancel
  /-- The loop starts the flush of the key that has waited longest. -/
  | start
  /-- The loop has started all it can. -/
  | park
  | exit
  /-- A flush makes a call. -/
  | call (key : Key)
  /-- A call returns, or is given up at its timeout. -/
  | answer (key : Key) (result : Except FlushFailure Unit)
  /-- The wait before the next call is over. -/
  | retry (key : Key)
  /-- The wait before the next call is cut short by shutdown. -/
  | giveUp (key : Key)
  /-- The loop takes note of the end of a flush. -/
  | collect (key : Key)
  /-- The loop notices that it was woken. -/
  | wake
  /-- The loop notices that shutdown was requested. -/
  | notice
  /-- Someone enlists to wait until the table is idle. -/
  | enlist (ticket : Nat)
  /-- Someone who waits looks at the table. -/
  | look (ticket : Nat)
  /-- Someone who waits gives up. -/
  | leave (ticket : Nat)

/-- How a call ended for those who count. -/
inductive Tally where
  | ok
  | rejected
  | retry
  deriving DecidableEq, Repr

/-- What is reported. -/
inductive Event (Key Mutation : Type) where
  /-- A mutation was accepted; it may have joined another one. -/
  | accepted (key : Key) (mutation : Mutation) (joined : Bool)
  /-- A mutation came after the close. -/
  | refused (key : Key) (mutation : Mutation)
  /-- A mutation came for a rejected key. -/
  | ignored (key : Key) (mutation : Mutation)
  /-- So many keys wait or are being flushed. -/
  | pending (count : Nat)
  /-- The flush of a mutation began. -/
  | started (key : Key) (mutation : Mutation)
  /-- A key waits again after its flush. -/
  | requeued (key : Key)
  | called (key : Key) (mutation : Mutation)
  | answered (key : Key) (mutation : Mutation) (tally : Tally)
  | retrying (key : Key) (failure : FlushFailure)
  /-- The mutations of a key were discarded for good. -/
  | rejected (key : Key) (failure : FlushFailure)
  /-- The mutations of a key were discarded at shutdown. -/
  | abandoned (key : Key) (failure : FlushFailure)
  /-- A flush ended for a key that was not being flushed. -/
  | stray (key : Key)
  /-- Someone who waited found the table idle. -/
  | returned (ticket : Nat)
  deriving DecidableEq, Repr

namespace Drain

variable {Key Mutation : Type}

/-- A loop that is about to start. -/
def initial : Drain Key Mutation := ⟨.empty, [], .filling, false, false, false, .empty⟩

instance : Inhabited (Drain Key Mutation) := ⟨initial⟩

/-- Notifies everyone who is enlisted. -/
def notifyAll (waiters : KeyMap Nat Waiter) : KeyMap Nat Waiter :=
  waiters.mapValues fun waiter => { waiter with notified := true }

variable [DecidableEq Key]

/-- The flush of a key. -/
def flush? (drain : Drain Key Mutation) (key : Key) : Option (Flush Key Mutation) :=
  drain.flushes.find? (·.key = key)

/-- Changes the flush of a key. -/
def setFlush (drain : Drain Key Mutation) (flush : Flush Key Mutation) : Drain Key Mutation :=
  { drain with
    flushes := drain.flushes.map fun other => if other.key = flush.key then flush else other }

/-- A flush after its call returned: it is over, or waits for the next call. -/
def afterAnswer (cancelled : Bool) (flush : Flush Key Mutation) :
    Except FlushFailure Unit → Flush Key Mutation × List (Event Key Mutation)
  | .ok () =>
      ({ flush with phase := .over .persisted }, [.answered flush.key flush.mutation .ok])
  | .error failure =>
      if failure.isRetryable then
        let answered := Event.answered flush.key flush.mutation .retry
        if cancelled then
          ({ flush with phase := .over (.abandoned failure) }, [answered])
        else
          ({ flush with failures := flush.failures + 1, phase := .backingOff failure },
            [answered, .retrying flush.key failure])
      else
        ({ flush with phase := .over (.rejected failure) },
          [.answered flush.key flush.mutation .rejected])

/-- What is reported of a flush that is over. -/
def verdictEvents (key : Key) : Verdict → List (Event Key Mutation)
  | .persisted => []
  | .rejected failure => [.rejected key failure]
  | .abandoned failure => [.abandoned key failure]

/-- What is reported of a key that was released. -/
def releaseEvents (key : Key) : Table.Release → List (Event Key Mutation)
  | .idle => []
  | .requeued => [.requeued key]
  | .stray => [.stray key]

/-- The state after a mutation was submitted. -/
def submit [Mergeable Mutation] (drain : Drain Key Mutation) (key : Key) (mutation : Mutation) :
    Drain Key Mutation × List (Event Key Mutation) :=
  match drain.table.submit key mutation with
  | (.refused, _) => (drain, [.refused key mutation])
  | (.ignored, _) => (drain, [.ignored key mutation])
  | (.queued, table) =>
      ({ drain with table, permit := true },
        [.accepted key mutation false, .pending table.size])
  | (.merged, table) => ({ drain with table }, [.accepted key mutation true])

/-- The state after the loop took note of the end of a flush. -/
def collect (drain : Drain Key Mutation) (key : Key) (verdict : Verdict) :
    Drain Key Mutation × List (Event Key Mutation) :=
  let (release, table) := drain.table.finish key verdict
  ({ drain with
      table
      flushes := drain.flushes.filter (·.key ≠ key)
      stage := .filling
      permit := drain.permit || release == .requeued
      waiters := if table.isIdle then notifyAll drain.waiters else drain.waiters },
    releaseEvents key release ++ .pending table.size :: verdictEvents key verdict)

/-- Whether the loop has a free place, given how many flushes it makes at a time. -/
def hasPlace (limit : Nat) (drain : Drain Key Mutation) : Bool := drain.flushes.length < limit

/-- The loop is done when it is draining and nothing is being flushed. -/
def isDone (drain : Drain Key Mutation) : Bool := drain.draining && drain.flushes.isEmpty

/-- One step of a dispatcher that makes so many flushes at a time, if it is possible. -/
def step? [Mergeable Mutation] (limit : Nat) (drain : Drain Key Mutation) :
    Action Key Mutation → Option (Drain Key Mutation × List (Event Key Mutation))
  | .submit key mutation => some (drain.submit key mutation)
  | .cancel => some ({ drain with cancelled := true }, [])
  | .start =>
      if drain.stage = .filling ∧ drain.hasPlace limit then
        match drain.table.nextReady with
        | (some (key, mutation), table) =>
            some
              ({ drain with table, flushes := drain.flushes ++ [⟨key, mutation, 0, .due⟩] },
                [.started key mutation])
        | (none, _) => none
      else
        none
  | .park =>
      if drain.stage = .filling then
        if drain.hasPlace limit then
          match drain.table.nextReady with
          | (none, table) =>
              if drain.isDone then none else some ({ drain with table, stage := .parked }, [])
          | (some _, _) => none
        else
          some ({ drain with stage := .parked }, [])
      else
        none
  | .exit =>
      if drain.stage = .filling ∧ drain.hasPlace limit ∧ drain.isDone then
        match drain.table.nextReady with
        | (none, table) => some ({ drain with table, stage := .exited }, [])
        | (some _, _) => none
      else
        none
  | .call key =>
      match drain.stage, drain.flush? key with
      | .parked, some ⟨_, mutation, failures, .due⟩ =>
          some (drain.setFlush ⟨key, mutation, failures, .calling⟩, [.called key mutation])
      | _, _ => none
  | .answer key result =>
      match drain.stage, drain.flush? key with
      | .parked, some ⟨_, mutation, failures, .calling⟩ =>
          let (flush, events) :=
            afterAnswer drain.cancelled ⟨key, mutation, failures, .calling⟩ result
          some (drain.setFlush flush, events)
      | _, _ => none
  | .retry key =>
      match drain.stage, drain.flush? key with
      | .parked, some ⟨_, mutation, failures, .backingOff _⟩ =>
          some (drain.setFlush ⟨key, mutation, failures, .due⟩, [])
      | _, _ => none
  | .giveUp key =>
      match drain.stage, drain.cancelled, drain.flush? key with
      | .parked, true, some ⟨_, mutation, failures, .backingOff failure⟩ =>
          some (drain.setFlush ⟨key, mutation, failures, .over (.abandoned failure)⟩, [])
      | _, _, _ => none
  | .collect key =>
      match drain.stage, drain.flush? key with
      | .parked, some ⟨_, _, _, .over verdict⟩ => some (drain.collect key verdict)
      | _, _ => none
  | .wake =>
      if drain.stage = .parked ∧ drain.permit then
        some ({ drain with stage := .filling, permit := false }, [])
      else
        none
  | .notice =>
      if drain.stage = .parked ∧ drain.cancelled ∧ !drain.draining then
        some ({ drain with table := drain.table.close, stage := .filling, draining := true }, [])
      else
        none
  | .enlist ticket =>
      match drain.waiters.get? ticket with
      | none =>
          some ({ drain with waiters := drain.waiters.insert ticket ⟨false, false⟩ }, [])
      | some ⟨true, true⟩ =>
          some ({ drain with waiters := drain.waiters.insert ticket ⟨false, false⟩ }, [])
      | some _ => none
  | .look ticket =>
      match drain.waiters.get? ticket with
      | some ⟨false, notified⟩ =>
          if drain.table.isIdle then
            some ({ drain with waiters := drain.waiters.erase ticket }, [.returned ticket])
          else
            some ({ drain with waiters := drain.waiters.insert ticket ⟨true, notified⟩ }, [])
      | _ => none
  | .leave ticket => some ({ drain with waiters := drain.waiters.erase ticket }, [])

end Drain

/-- How many flushes a loop makes at a time: at least one. -/
def places (configured : Nat) : Nat := max 1 configured

end Dispatch
end Intake
