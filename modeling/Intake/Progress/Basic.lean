import Intake.Overflow
import Intake.Uuid

/-!
# Progress of jobs

How many records of a job succeeded and failed, and how many there are once that is known.  Deltas
add to both counters; the sums are checked.
-/

namespace Intake

/-- The progress of one job. -/
structure JobProgress where
  job : Uuid
  /-- How many records the job holds, once that is known. -/
  total : Option Int64
  succeeded : Int64
  failed : Int64
  deriving DecidableEq

/-- Counts to be added to the progress of a job. -/
structure ProgressDelta where
  job : Uuid
  succeeded : Int64
  failed : Int64
  deriving DecidableEq

namespace ProgressDelta

/-- The delta that adds nothing. -/
def zero (job : Uuid) : ProgressDelta := ⟨job, 0, 0⟩

/-- One record succeeded. -/
def success (job : Uuid) : ProgressDelta := ⟨job, 1, 0⟩

/-- One record failed. -/
def failure (job : Uuid) : ProgressDelta := ⟨job, 0, 1⟩

/-- One record was completed, with success or without. -/
def completion (job : Uuid) (succeeded : Bool) : ProgressDelta :=
  if succeeded then success job else failure job

/-- The counts of both deltas, for the job of the first. -/
def plus (delta other : ProgressDelta) : ProgressDelta :=
  { delta with
    succeeded := delta.succeeded + other.succeeded
    failed := delta.failed + other.failed }

/-- The counts of both deltas, if they fit. -/
def plus? (delta other : ProgressDelta) : Except Overflow ProgressDelta := do
  let succeeded ← Counter.add delta.succeeded other.succeeded
  let failed ← Counter.add delta.failed other.failed
  return { delta with succeeded, failed }

end ProgressDelta

namespace JobProgress

/-- A job of which no record was processed. -/
def start (job : Uuid) (total : Option Int64) : JobProgress := ⟨job, total, 0, 0⟩

/-- How many records were processed. -/
def processed (progress : JobProgress) : Except Overflow Int64 :=
  Counter.add progress.succeeded progress.failed

/-- Adds the counts of a delta. -/
def add (progress : JobProgress) (delta : ProgressDelta) : Except Overflow JobProgress := do
  let succeeded ← Counter.add progress.succeeded delta.succeeded
  let failed ← Counter.add progress.failed delta.failed
  return { progress with succeeded, failed }

/-- Whether more records were processed than the job holds. -/
def exceedsTotal (progress : JobProgress) : Except Overflow Bool :=
  match progress.total with
  | none => .ok false
  | some total => do return total < (← progress.processed)

/-- Whether every record of the job was processed. -/
def isComplete (progress : JobProgress) : Except Overflow Bool :=
  match progress.total with
  | none => .ok false
  | some total => do return total ≤ (← progress.processed)

end JobProgress
end Intake
