import Intake.Dispatch.Lane
import Intake.Dispatch.Report

/-!
# Recorded calls

A backend for trying out a dispatcher: every call takes the next outcome of a script, waits, and
then answers with the outcome.  It keeps a trace of the calls and of the failures that the
dispatcher reports.
-/

namespace Intake
namespace Dispatch

/-- What a call is made to do. -/
inductive Outcome where
  | succeed
  | failTransiently
  | failPermanently
  /-- Waits an hour before it succeeds. -/
  | hang
  deriving DecidableEq, Repr

/-- A script of calls and what was made of it. -/
structure Recorder (Key : Type) where
  /-- How long a call waits. -/
  delay : Nat
  /-- The outcomes of the next calls; then every call succeeds. -/
  script : List Outcome
  attempts : Nat
  /-- How many calls began while another one of their key was under way. -/
  overlapping : Nat
  persisted : Nat
  /-- The keys of the calls that are under way. -/
  active : List Key

namespace Recorder

/-- A script of which nothing was used. -/
def create {Key : Type} (delay : Nat) (script : List Outcome) : Recorder Key :=
  ⟨delay, script, 0, 0, 0, []⟩

/-- How long a call waits when it hangs. -/
def hour : Nat := 3600000

variable {Key : Type} [DecidableEq Key]

/-- Begins a call: its outcome and its wait. -/
def enter (recorder : Recorder Key) (key : Key) : Outcome × Nat × Recorder Key :=
  let outcome := recorder.script.headD .succeed
  (outcome, if outcome = .hang then hour else recorder.delay,
    { recorder with
      script := recorder.script.tail
      attempts := recorder.attempts + 1
      overlapping := recorder.overlapping + if recorder.active.contains key then 1 else 0
      active := key :: recorder.active })

/-- Ends a call that was given up. -/
def leave (recorder : Recorder Key) (key : Key) : Recorder Key :=
  { recorder with active := recorder.active.erase key }

/-- Ends a call with its outcome. -/
def complete (recorder : Recorder Key) (key : Key) (outcome : Outcome) : Recorder Key :=
  let left := recorder.leave key
  match outcome with
  | .succeed | .hang => { left with persisted := left.persisted + 1 }
  | .failTransiently | .failPermanently => left

end Recorder

/-- How a call ended in the trace. -/
inductive Ending where
  | ok
  | transient
  | permanent
  /-- The call was given up at its timeout. -/
  | dropped
  deriving DecidableEq, Repr

/-- What a trace tells of a key. -/
inductive Happening (Mutation : Type) where
  | started (mutation : Mutation)
  | ended (ending : Ending)
  /-- The dispatcher reported that mutations were discarded. -/
  | failed (failure : FlushFailure)

/-- Something in a trace. -/
structure Trace (Key Mutation : Type) where
  time : Nat
  key : Key
  happening : Happening Mutation

/-- Recorders by key, one for all other keys, and what happened. -/
structure Recording (Key Mutation : Type) where
  recorders : KeyMap Key (Recorder Key)
  fallback : Recorder Key
  /-- Whether discarded mutations are reported. -/
  reporting : Bool
  /-- What happened since the trace was last read, last first. -/
  trace : List (Trace Key Mutation)
  /-- What was noticed since the notices were last read, last first. -/
  notices : List Notice

namespace Recording

variable {Key Mutation : Type} [DecidableEq Key]

/-- The recorder of a key. -/
def recorder (recording : Recording Key Mutation) (key : Key) : Recorder Key :=
  (recording.recorders.get? key).getD recording.fallback

/-- Replaces the recorder of a key. -/
def setRecorder (recording : Recording Key Mutation) (key : Key) (recorder : Recorder Key) :
    Recording Key Mutation :=
  if recording.recorders.contains key then
    { recording with recorders := recording.recorders.insert key recorder }
  else
    { recording with fallback := recorder }

/-- Adds to the trace. -/
def note (recording : Recording Key Mutation) (time : Nat) (key : Key)
    (happening : Happening Mutation) : Recording Key Mutation :=
  { recording with trace := ⟨time, key, happening⟩ :: recording.trace }

/-- How an outcome shows in the trace. -/
def ending : Outcome → Ending
  | .succeed | .hang => .ok
  | .failTransiently => .transient
  | .failPermanently => .permanent

/-- What a call answers. -/
def result : Outcome → Except FlushFailure Unit
  | .succeed | .hang => .ok ()
  | .failTransiently => .error (.transient "scripted")
  | .failPermanently => .error (.permanent "scripted")

/-- Ends a call with its outcome. -/
def complete (recording : Recording Key Mutation) (time : Nat) (key : Key) (outcome : Outcome) :
    Motion Outcome × Recording Key Mutation :=
  (.answers (result outcome),
    (recording.setRecorder key ((recording.recorder key).complete key outcome)).note time key
      (.ended (ending outcome)))

/-- Begins a call. -/
def begin (recording : Recording Key Mutation) (time : Nat) (key : Key) (mutation : Mutation) :
    Motion Outcome × Recording Key Mutation :=
  let (outcome, wait, recorder) := (recording.recorder key).enter key
  let recording := (recording.setRecorder key recorder).note time key (.started mutation)
  if wait = 0 then recording.complete time key outcome else (.waits wait outcome, recording)

/-- Gives up a call. -/
def drop (recording : Recording Key Mutation) (time : Nat) (key : Key) :
    Recording Key Mutation :=
  (recording.setRecorder key ((recording.recorder key).leave key)).note time key (.ended .dropped)

/-- Takes note of an event. -/
def observe (name : String) (recording : Recording Key Mutation) (time : Nat)
    (event : Event Key Mutation) : Recording Key Mutation :=
  let recording := { recording with notices := (event.notices name).reverse ++ recording.notices }
  match event.discarded? with
  | some (key, failure) =>
      if recording.reporting then recording.note time key (.failed failure) else recording
  | none => recording

/-- The backend of recorded calls for a dispatcher of some name. -/
def backend (name : String) : Backend Key Mutation Outcome (Recording Key Mutation) where
  start := fun time key mutation recording => .ok (recording.begin time key mutation)
  resume := fun time key outcome recording => .ok (recording.complete time key outcome)
  cut := fun time key _ recording => recording.drop time key
  observe := fun time event recording => recording.observe name time event

end Recording
end Dispatch
end Intake
