import Intake.Failure
import Intake.KeyMap

/-!
# The table of a dispatcher

A dispatcher coalesces many small mutations into few calls, with one writer for each key.  A key is
absent while nothing is to be done for it.  Its first mutation waits, and later ones are merged into
it; while a mutation is being flushed, later ones are merged into a slot of their own, which waits
in turn as soon as the flush is over.  Keys that wait are flushed in the order in which they began
to wait.
-/

namespace Intake

/-- Updates that can take in a later update of the same key. -/
class Mergeable (Mutation : Type) where
  /-- Both updates in one, the later one last. -/
  merge : Mutation → Mutation → Mutation

namespace Dispatch

/-- What is to be done for a key. -/
inductive Slot (Mutation : Type) where
  /-- A mutation waits for a flush. -/
  | waiting (mutation : Mutation)
  /-- A mutation is being flushed, and another one may wait behind it. -/
  | flushing (next : Option Mutation)
  deriving DecidableEq, Repr

/-- How a flush ended. -/
inductive Verdict where
  | persisted
  /-- The storage refused the mutation for good. -/
  | rejected (failure : FlushFailure)
  /-- The last attempt failed when shutdown was requested. -/
  | abandoned (failure : FlushFailure)
  deriving DecidableEq, Repr

/-- All that is to be done, by key. -/
structure Table (Key Mutation : Type) where
  states : KeyMap Key (Slot Mutation)
  /-- The keys that wait, longest wait first. -/
  ready : List Key
  /-- The keys that were rejected. -/
  dropped : List Key
  /-- Whether mutations are no longer taken in. -/
  closed : Bool

/-- What became of a submission. -/
inductive Submission where
  /-- The table is closed. -/
  | refused
  /-- The key was rejected before. -/
  | ignored
  /-- The key began to wait. -/
  | queued
  /-- The mutation joined another one. -/
  | merged
  deriving DecidableEq, Repr

namespace Table

variable {Key Mutation : Type}

/-- Nothing is to be done. -/
def empty : Table Key Mutation := ⟨.empty, [], [], false⟩

instance : Inhabited (Table Key Mutation) := ⟨empty⟩

/-- How many keys wait or are being flushed. -/
def size (table : Table Key Mutation) : Nat := table.states.size

/-- Whether no key waits or is being flushed. -/
def isIdle (table : Table Key Mutation) : Bool := table.states.isEmpty

variable [DecidableEq Key]

/-- Takes in a mutation of a key. -/
def submit [Mergeable Mutation] (table : Table Key Mutation) (key : Key) (mutation : Mutation) :
    Submission × Table Key Mutation :=
  if table.closed then (.refused, table)
  else if table.dropped.contains key then (.ignored, table)
  else
    match table.states.get? key with
    | none =>
        (.queued,
          { table with
            states := table.states.insert key (.waiting mutation)
            ready := table.ready ++ [key] })
    | some (.waiting earlier) =>
        (.merged,
          { table with
            states := table.states.insert key (.waiting (Mergeable.merge earlier mutation)) })
    | some (.flushing (some earlier)) =>
        (.merged,
          { table with
            states :=
              table.states.insert key (.flushing (some (Mergeable.merge earlier mutation))) })
    | some (.flushing none) =>
        (.merged, { table with states := table.states.insert key (.flushing (some mutation)) })

/-- The first key that waits, with its mutation, and the keys behind it. -/
def firstWaiting (states : KeyMap Key (Slot Mutation)) :
    List Key → Option (Key × Mutation) × List Key
  | [] => (none, [])
  | key :: rest =>
      match states.get? key with
      | some (.waiting mutation) => (some (key, mutation), rest)
      | _ => firstWaiting states rest

/-- Hands out the mutation that has waited longest. -/
def nextReady (table : Table Key Mutation) : Option (Key × Mutation) × Table Key Mutation :=
  match firstWaiting table.states table.ready with
  | (none, ready) => (none, { table with ready })
  | (some (key, mutation), ready) =>
      (some (key, mutation),
        { table with states := table.states.insert key (.flushing none), ready })

/-- What follows from the end of a flush. -/
inductive Release where
  /-- The key is idle. -/
  | idle
  /-- The key waits again. -/
  | requeued
  /-- The key was not being flushed. -/
  | stray
  deriving DecidableEq, Repr

/-- Brings a key out of its flush. -/
def finish (table : Table Key Mutation) (key : Key) (verdict : Verdict) :
    Release × Table Key Mutation :=
  let left := { table with states := table.states.erase key }
  match verdict, table.states.get? key with
  | .persisted, some (.flushing (some next)) =>
      (.requeued,
        { left with
          states := left.states.insert key (.waiting next)
          ready := left.ready ++ [key] })
  | .persisted, some (.flushing none) => (.idle, left)
  | .rejected _, _ => (.idle, { left with dropped := key :: left.dropped })
  | .abandoned _, _ => (.idle, left)
  | .persisted, _ => (.stray, left)

/-- Takes in no more mutations. -/
def close (table : Table Key Mutation) : Table Key Mutation := { table with closed := true }

end Table
end Dispatch
end Intake
