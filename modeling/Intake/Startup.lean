import Intake.Pipeline.Basic

/-!
# Starting a worker

A worker reads its settings, and stops there if a variable is bad or a value cannot work.  With
accepted settings it starts its dispatchers, its governor and its tracker, makes room for the tasks
of its consumers, and starts one consumer after the other.  Building the tracker and making room are
what can still crash.
-/

namespace Intake

open Dispatch

/-- Why an environment is not accepted. -/
inductive Rejection where
  /-- A variable is bad. -/
  | variable (name : String)
  /-- A value cannot work. -/
  | settings (failure : SettingsFailure)
  deriving DecidableEq

/-- How the dispatchers of a worker flush. -/
def FlushSettings.policy (settings : FlushSettings) : Policy :=
  ⟨places settings.maxConcurrent.toNat, settings.timeout, settings.retryPolicy⟩

namespace Settings

/-- The settings of an environment, if they can be read and are valid. -/
def accept (env : Environment) : Except Rejection Settings :=
  match load env with
  | .error name => .error (.variable name)
  | .ok settings =>
      match settings.validate with
      | .error failure => .error (.settings failure)
      | .ok () => .ok settings

/-- The bytes of a pointer, which is what is kept of a task. -/
def handleBytes : Nat := 8

/-- The first number of bytes for which no room can be made. -/
def roomBound : Nat := 9223372036854775808

/-- The report on more room than can be made. -/
def roomRefusal : String := "capacity overflow"

/-- Makes room for the tasks of the consumers and for the one that takes completions.  Counting the
latter in may overflow. -/
def reserve (consumers : UInt64) : Except String Unit :=
  let tasks := consumers.toNat + 1
  if UInt64.size ≤ tasks then .error Overflow.addition.message
  else if roomBound ≤ tasks * handleBytes then .error roomRefusal
  else .ok ()

/-- The consumers of chunks, first to last. -/
def consumerNames (settings : Settings) : List String :=
  (List.range settings.ingestionConsumers.toNat).map (Pipeline.consumerName settings.chunkTopic)

/-- Starts a worker, unless a part of it crashes. -/
def start (settings : Settings) : Except String Worker := do
  let tracker ← ChunkTracker.create settings.chunkCapacity settings.chunkLifetime
  reserve settings.ingestionConsumers
  return Pipeline.createWorker settings.flow settings.chunkTopic
    settings.ingestionConsumers.toNat tracker settings.flush.policy settings.flush.policy

end Settings
end Intake
