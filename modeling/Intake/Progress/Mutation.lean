import Intake.Progress.Basic

/-!
# Mutations of progress

A mutation is the list of steps submitted for one job, in order.  Merging appends the later steps;
where a delta meets a delta the two become one, so a stream of completions stays a single step.
-/

namespace Intake

/-- One step of a mutation. -/
inductive ProgressStep where
  /-- Adds to the counters. -/
  | delta (change : ProgressDelta)
  /-- Any update of the progress; it may overflow. -/
  | mutate (update : JobProgress → Except Overflow JobProgress)
  /-- Creates the job unless it exists, and sets its total if that is known. -/
  | create (total : Option Int64)

namespace ProgressStep

/-- The progress after a step. -/
def apply (progress : JobProgress) : ProgressStep → Except Overflow JobProgress
  | delta change => progress.add change
  | mutate update => update progress
  | create none => .ok progress
  | create (some total) => .ok { progress with total := some total }

/-- Whether the step creates a missing job. -/
def isCreate : ProgressStep → Bool
  | create _ => true
  | _ => false

end ProgressStep

/-- Steps in the order in which they were submitted. -/
structure ProgressMutation where
  steps : List ProgressStep

namespace ProgressMutation

/-- The mutation of one delta. -/
def delta (change : ProgressDelta) : ProgressMutation := ⟨[.delta change]⟩

/-- The mutation of one update. -/
def mutator (update : JobProgress → Except Overflow JobProgress) : ProgressMutation :=
  ⟨[.mutate update]⟩

/-- The mutation that creates a job. -/
def create (total : Option Int64) : ProgressMutation := ⟨[.create total]⟩

/-- Sets the total. -/
def setTotal (total : Option Int64) : ProgressMutation :=
  mutator fun progress => .ok { progress with total }

/-- Adds a step at the end; a delta joins a delta. -/
def push : List ProgressStep → ProgressStep → List ProgressStep
  | [], step => [step]
  | [.delta last], .delta next => [.delta (last.plus next)]
  | [last], step => [last, step]
  | first :: rest, step => first :: push rest step

/-- The steps of both mutations, the later ones last. -/
def merge (earlier later : ProgressMutation) : ProgressMutation :=
  ⟨later.steps.foldl push earlier.steps⟩

/-- Adds a step at the end if the counts of a joined delta fit. -/
def push? : List ProgressStep → ProgressStep → Except Overflow (List ProgressStep)
  | [], step => .ok [step]
  | [.delta last], .delta next => do return [.delta (← last.plus? next)]
  | [last], step => .ok [last, step]
  | first :: rest, step => do return first :: (← push? rest step)

/-- The steps of both mutations, if all joined counts fit. -/
def merge? (earlier later : ProgressMutation) : Except Overflow ProgressMutation := do
  return ⟨← later.steps.foldlM push? earlier.steps⟩

/-- Whether the mutation creates a missing job. -/
def createsJob (mutation : ProgressMutation) : Bool := mutation.steps.any ProgressStep.isCreate

/-- The delta that is the whole mutation, if it is one. -/
def asDelta (mutation : ProgressMutation) : Option ProgressDelta :=
  match mutation.steps with
  | [.delta change] => some change
  | _ => none

/-- The progress after every step, in order. -/
def apply (mutation : ProgressMutation) (progress : JobProgress) : Except Overflow JobProgress :=
  mutation.steps.foldlM ProgressStep.apply progress

end ProgressMutation

/-! ## Named updates -/

/-- The updates that scripts know by name. -/
inductive ProgressUpdate where
  | setTotal (total : Option Int64)
  | resetSucceeded
  | resetFailed
  | double
  | swap
  | totalFromProcessed
  deriving DecidableEq

namespace ProgressUpdate

/-- What a named update does. -/
def apply (progress : JobProgress) : ProgressUpdate → Except Overflow JobProgress
  | setTotal total => .ok { progress with total }
  | resetSucceeded => .ok { progress with succeeded := 0 }
  | resetFailed => .ok { progress with failed := 0 }
  | double => do
      let succeeded ← Counter.double progress.succeeded
      let failed ← Counter.double progress.failed
      return { progress with succeeded, failed }
  | swap => .ok { progress with succeeded := progress.failed, failed := progress.succeeded }
  | totalFromProcessed => do
      let processed ← progress.processed
      return { progress with total := some processed }

/-- The mutation of a named update. -/
def mutation (update : ProgressUpdate) : ProgressMutation := .mutator (update.apply ·)

end ProgressUpdate
end Intake
