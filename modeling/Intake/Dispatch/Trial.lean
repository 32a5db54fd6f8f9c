import Intake.Dispatch.Recorder

/-!
# Trials of a dispatcher

A trial drives one dispatcher with recorded calls: it submits mutations, lets time pass, waits until
nothing is left to do, requests shutdown and waits for the loop to exit.  Between its steps nothing
happens, so mutations that are submitted without time passing are merged.
-/

namespace Intake
namespace Dispatch

/-- Tokens are merged by putting one list behind the other. -/
instance {Token : Type} : Mergeable (List Token) := ⟨(· ++ ·)⟩

/-- What a trial does next. -/
inductive TrialStep (Mutation : Type) where
  | submit (key : String) (mutation : Mutation)
  /-- Lets so many milliseconds pass. -/
  | advance (millis : Nat)
  /-- Waits until the table is idle. -/
  | wait
  /-- Requests shutdown. -/
  | shutdown
  /-- Waits until the loop has exited. -/
  | join

/-- What a step of a trial gives. -/
inductive TrialResult where
  | nothing
  | idle
  | joined
  /-- What was waited for did not come. -/
  | stuck
  deriving DecidableEq, Repr

/-- A dispatcher with recorded calls at some time. -/
structure Trial (Mutation : Type) where
  name : String
  now : Nat
  turn : Turn String Mutation Outcome (Recording String Mutation)

namespace Trial

/-- The longest wait: ten minutes. -/
def patience : Nat := 600000

variable {Mutation : Type} [Mergeable Mutation]

/-- A trial of a dispatcher with nothing to do. -/
def create (name : String) (policy : Policy) (recorders : List (String × Recorder String))
    (fallback : Recorder String) (reporting : Bool) : Trial Mutation :=
  { name
    now := 0
    turn :=
      { lane := Lane.create policy
        world :=
          { recorders := recorders.foldl (fun map entry => map.insert entry.1 entry.2) .empty
            fallback, reporting
            trace := []
            notices := [] }
        ticket := 0 } }

/-- Takes a step of the dispatcher. -/
def act (trial : Trial Mutation) (action : Action String Mutation) : Trial Mutation :=
  { trial with turn := trial.turn.act (Recording.backend trial.name) trial.now action }

/-- Lets everything happen that needs no time. -/
def settle (trial : Trial Mutation) : Except Overflow (Trial Mutation) := do
  return { trial with turn := ← trial.turn.run (Recording.backend trial.name) trial.now }

/-- Lets time pass until a condition holds or a time has come, from one timer to the next. -/
def passFrom (until? : Trial Mutation → Bool) (limit : Nat) :
    Nat → Trial Mutation → Except Overflow (Trial Mutation)
  | 0, trial => .ok trial
  | fuel + 1, trial => do
      let trial ← trial.settle
      if until? trial then return trial
      match trial.turn.lane.nextDue with
      | none => return { trial with now := limit }
      | some due =>
          if due ≤ limit then passFrom until? limit fuel { trial with now := due }
          else return { trial with now := limit }

/-- More timers than a trial sets unless it never rests. -/
def manyTimers : Nat := 1000000

/-- Lets so many milliseconds pass. -/
def pass (millis : Nat) (trial : Trial Mutation) : Except Overflow (Trial Mutation) :=
  passFrom (fun _ => false) (trial.now + millis) manyTimers trial

/-- Waits for a condition, and tells whether it came.  What comes exactly at the end of the longest
wait is too late. -/
def passUntil (until? : Trial Mutation → Bool) (trial : Trial Mutation) :
    Except Overflow (Bool × Trial Mutation) := do
  let limit := trial.now + patience
  let trial ← passFrom until? (limit - 1) manyTimers trial
  if until? trial then return (true, trial)
  else return (false, ← passFrom (fun _ => false) limit manyTimers trial)

/-- Someone enlists and looks at the table. -/
def await (trial : Trial Mutation) (ticket : Nat) : Trial Mutation :=
  { trial with turn := trial.turn.await (Recording.backend trial.name) trial.now ticket }

/-- Whether someone who waits has to look at the table again, or has found it idle. -/
def isServed (trial : Trial Mutation) (ticket : Nat) : Bool := trial.turn.lane.isServed ticket

/-- Whether the loop has exited. -/
def hasExited (trial : Trial Mutation) : Bool := trial.turn.lane.hasExited

/-- Takes a step of a trial. -/
def step (trial : Trial Mutation) :
    TrialStep Mutation → Except Overflow (TrialResult × Trial Mutation)
  | .submit key mutation => .ok (.nothing, trial.act (.submit key mutation))
  | .advance millis => do return (.nothing, ← trial.pass millis)
  | .wait => do
      let (served, trial) ← (trial.await 0).passUntil (·.isServed 0)
      if served then return (.idle, trial.await 0)
      else return (.stuck, trial.act (.leave 0))
  | .shutdown => .ok (.nothing, trial.act .cancel)
  | .join => do
      let (exited, trial) ← trial.passUntil hasExited
      return (if exited then .joined else .stuck, trial)

/-- What happened since this was last asked, by time, then by key. -/
def trace (trial : Trial Mutation) : List (Trace String Mutation) :=
  trial.turn.world.trace.reverse.mergeSort fun left right =>
    left.time < right.time || (left.time == right.time && decide (left.key ≤ right.key))

/-- What was noticed since this was last asked. -/
def notices (trial : Trial Mutation) : List Notice := trial.turn.world.notices.reverse

/-- The trial with its trace and its notices forgotten. -/
def forget (trial : Trial Mutation) : Trial Mutation :=
  let world := { trial.turn.world with trace := [], notices := [] }
  { trial with turn := { trial.turn with world } }

end Trial
end Dispatch
end Intake
