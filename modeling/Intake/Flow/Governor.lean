import Intake.Flow.Consumer
import Intake.Settings
import Intake.Telemetry

/-!
# Admission by watermarks

A governor counts the records in flight.  A signal first moves the count; if the new count reaches
the high watermark the consumers of the governed topic are paused, and if it falls to the low one
they are resumed, one consumer after the other.  Before each consumer the count is read again, and
the pass ends as soon as the count no longer calls for the command.

`Governor.count`, `Governor.applies` and `Governor.tell` are the single steps of a signal;
`Governor.pass` puts them together for all consumers, and `Governor.raise` is a whole signal with
all that resumed consumers raise in turn.
-/

namespace Intake

/-- Why a count was held at zero. -/
inductive Shortfall where
  /-- A chunk was taken back that is larger than the count. -/
  | duplicate
  /-- A record was completed with none in flight. -/
  | completion
  deriving DecidableEq, Repr

/-- The records in flight, the consumers, and when they are paused and resumed. -/
structure Governor where
  settings : FlowSettings
  topic : String
  inFlight : UInt64
  fleet : Fleet

namespace Governor

/-- What a governor reports. -/
inductive Event where
  /-- The count moved. -/
  | counted (inFlight : UInt64)
  | shortfall (cause : Shortfall)
  | obeyed (command : Command)
  | refused (command : Command) (failure : ConsumerFailure)
  deriving DecidableEq, Repr

namespace Event

/-- The gauge of records in flight. -/
def inFlightSeries : Series := ⟨"import_flow_in_flight_records", []⟩

/-- The counter of consumers that obeyed a command. -/
def obeyedSeries : Command → Series
  | .pause => ⟨"import_flow_consumers_paused", []⟩
  | .resume => ⟨"import_flow_consumers_resumed", []⟩

/-- The counter of commands that failed. -/
def refusedSeries (command : Command) : Series :=
  ⟨"import_flow_consumer_signal_failed", [("signal", command.name)]⟩

/-- The name of a shortfall. -/
def shortfallName : Shortfall → String
  | .duplicate => "duplicate"
  | .completion => "completion"

/-- The counter of shortfalls. -/
def shortfallSeries (cause : Shortfall) : Series :=
  ⟨"import_flow_counter_underflow", [("source", shortfallName cause)]⟩

/-- The log line of a shortfall. -/
def shortfallLine : Shortfall → String
  | .duplicate =>
      "duplicate chunk correction larger than the in-flight count, clamping to zero"
  | .completion => "record completed with no records in flight, counter stays at zero"

/-- The notices of an event. -/
def notices : Event → List Notice
  | counted inFlight => [.gauged inFlightSeries inFlight]
  | shortfall cause =>
      [.logged .warning (shortfallLine cause), .counted (shortfallSeries cause)]
  | obeyed command => [.counted (obeyedSeries command)]
  | refused command failure =>
      [.logged .warning
        ("failed to " ++ command.name ++ " ingestion consumer: " ++ failure.message),
       .counted (refusedSeries command)]

end Event

/-- A governor of a topic with nothing in flight. -/
def create (settings : FlowSettings) (topic : String) (fleet : Fleet) : Governor :=
  ⟨settings, topic, 0, fleet⟩

/-- A sum that stays at the greatest number instead of wrapping around. -/
def saturatingAdd (left right : UInt64) : UInt64 :=
  if left.toNat + right.toNat < UInt64.size then left + right
  else UInt64.ofNat (UInt64.size - 1)

/-- A difference that stays at zero instead of wrapping around. -/
def saturatingSub (left right : UInt64) : UInt64 := if right ≤ left then left - right else 0

/-! ## Single steps -/

/-- The command that a count after an admission calls for. -/
def pauseAt (governor : Governor) (inFlight : UInt64) : Option Command :=
  if governor.settings.high ≤ inFlight then some .pause else none

/-- The command that a count after a completion or a correction calls for. -/
def resumeAt (governor : Governor) (inFlight : UInt64) : Option Command :=
  if inFlight ≤ governor.settings.low then some .resume else none

/-- The first step of a signal: the count moves, and may call for a command. -/
def count (governor : Governor) (signal : Signal) :
    Governor × List Event × Option Command :=
  match signal with
  | .admitted count =>
      let inFlight := saturatingAdd governor.inFlight count
      ({ governor with inFlight := governor.inFlight + count }, [.counted inFlight],
        governor.pauseAt inFlight)
  | .duplicate count =>
      let inFlight := saturatingSub governor.inFlight count
      let shortfall := if governor.inFlight < count then [Event.shortfall .duplicate] else []
      ({ governor with inFlight }, shortfall ++ [.counted inFlight], governor.resumeAt inFlight)
  | .completed =>
      if governor.inFlight = 0 then (governor, [.shortfall .completion], none)
      else
        let inFlight := governor.inFlight - 1
        ({ governor with inFlight }, [.counted inFlight], governor.resumeAt inFlight)

/-- Whether the count still calls for a command. -/
def applies (governor : Governor) : Command → Bool
  | .pause => governor.settings.high ≤ governor.inFlight
  | .resume => governor.inFlight ≤ governor.settings.low

/-- Gives a command to a consumer. -/
def tell (governor : Governor) (command : Command) (name : String) : Governor × Event :=
  let (failure, fleet) := governor.fleet.tell command name
  let event :=
    match failure with
    | none => .obeyed command
    | some failure => .refused command failure
  ({ governor with fleet }, event)

/-! ## Whole signals -/

/-- Raises signals one after the other. -/
def raiseAll (raise : Signal → Governor → Governor × List Event) :
    List Signal → Governor → Governor × List Event
  | [], governor => (governor, [])
  | signal :: rest, governor =>
      let (governor, events) := raise signal governor
      let (governor, later) := raiseAll raise rest governor
      (governor, events ++ later)

/-- Gives a command to those consumers that need it, as long as the count calls for it.  What a
consumer raises after it was resumed comes before its own event. -/
def pass (raise : Signal → Governor → Governor × List Event) (command : Command) :
    List String → Governor → Governor × List Event
  | [], governor => (governor, [])
  | name :: rest, governor =>
      if governor.applies command then
        let consumer := governor.fleet.consumer name
        if consumer.needs command then
          let (governor, event) := governor.tell command name
          let (governor, raised) := raiseAll raise (consumer.raised command) governor
          let (governor, later) := pass raise command rest governor
          (governor, raised ++ event :: later)
        else
          pass raise command rest governor
      else
        (governor, [])

/-- A signal, given how to raise what resumed consumers raise in turn. -/
def raiseWith (raise : Signal → Governor → Governor × List Event) (signal : Signal)
    (governor : Governor) : Governor × List Event :=
  if governor.settings.enabled then
    match governor.count signal with
    | (governor, events, none) => (governor, events)
    | (governor, events, some command) =>
        let (governor, later) :=
          pass raise command (governor.fleet.registry.handles governor.topic) governor
        (governor, events ++ later)
  else
    (governor, [])

/-- A signal whose consequences nest at most so deep. -/
def raiseNested : Nat → Signal → Governor → Governor × List Event
  | 0 => raiseWith fun _ governor => (governor, [])
  | depth + 1 => raiseWith (raiseNested depth)

/-- Raises a signal.  A consumer raises nothing while it is already raising, so no nesting is deeper
than there are consumers. -/
def raise (signal : Signal) (governor : Governor) : Governor × List Event :=
  raiseNested governor.fleet.consumers.size signal governor

/-- Gives a command to a consumer from outside, with all that it raises. -/
def command (governor : Governor) (command : Command) (name : String) :
    Option ConsumerFailure × Governor × List Event :=
  let consumer := governor.fleet.consumer name
  let (failure, fleet) := governor.fleet.tell command name
  let (governor, events) := raiseAll raise (consumer.raised command) { governor with fleet }
  (failure, governor, events)

end Governor
end Intake
