import Intake.Dispatch.Drain
import Intake.Telemetry

/-!
# Reports of dispatchers

What the events of a dispatcher mean for its metrics and its log, under the name of the dispatcher.
-/

namespace Intake
namespace Dispatch

/-- The name of a tally. -/
def Tally.name : Tally → String
  | ok => "ok"
  | rejected => "rejected"
  | retry => "retry"

/-- A metric of a dispatcher with more labels. -/
def series (metric dispatcher : String) (labels : List (String × String)) : Series :=
  ⟨"import_dispatch_" ++ metric, ("dispatcher", dispatcher) :: labels⟩

/-- The counter of accepted mutations. -/
def submittedSeries (dispatcher : String) : Series := series "submitted" dispatcher []

/-- The counter of mutations that joined another one. -/
def mergedSeries (dispatcher : String) : Series := series "merged" dispatcher []

/-- The gauge of keys that wait or are being flushed. -/
def pendingSeries (dispatcher : String) : Series := series "pending_keys" dispatcher []

/-- The durations of calls. -/
def flushTimeSeries (dispatcher : String) : Series := series "flush_time_seconds" dispatcher []

/-- The counter of calls by how they ended. -/
def flushesSeries (dispatcher : String) (tally : Tally) : Series :=
  series "flushes" dispatcher [("result", tally.name)]

/-- The counter of calls that are repeated. -/
def retriesSeries (dispatcher : String) : Series := series "retries" dispatcher []

/-- The counter of discarded mutations by reason. -/
def droppedSeries (dispatcher reason : String) : Series :=
  series "dropped_keys" dispatcher [("reason", reason)]

/-- The log line of discarded mutations. -/
def droppedLine (failure : FlushFailure) : String := "dropping mutations: " ++ failure.message

/-- The notices of an event. -/
def Event.notices {Key Mutation : Type} (dispatcher : String) : Event Key Mutation → List Notice
  | accepted _ _ false => [.counted (submittedSeries dispatcher)]
  | accepted _ _ true =>
      [.counted (submittedSeries dispatcher), .counted (mergedSeries dispatcher)]
  | refused _ _ =>
      [.logged .warning "dispatcher is shut down, dropping mutation",
       .counted (droppedSeries dispatcher "closed")]
  | ignored _ _ => []
  | pending count => [.gauged (pendingSeries dispatcher) (UInt64.ofNat count)]
  | started _ _ => []
  | requeued _ => []
  | called _ _ => []
  | answered _ _ tally =>
      [.timed (flushTimeSeries dispatcher), .counted (flushesSeries dispatcher tally)]
  | retrying _ failure =>
      [.logged .warning ("flush failed, retrying: " ++ failure.message),
       .counted (retriesSeries dispatcher)]
  | rejected _ failure =>
      [.logged .error (droppedLine failure), .counted (droppedSeries dispatcher "rejected")]
  | abandoned _ failure =>
      [.logged .error (droppedLine failure), .counted (droppedSeries dispatcher "abandoned")]
  | stray _ => [.logged .error "flush finished for a key that was not flushing"]
  | returned _ => []

/-- The failure for which the mutations of a key were discarded. -/
def Event.discarded? {Key Mutation : Type} : Event Key Mutation → Option (Key × FlushFailure)
  | rejected key failure => some (key, failure)
  | abandoned key failure => some (key, failure)
  | _ => none

end Dispatch
end Intake
