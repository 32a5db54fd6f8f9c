import Intake.Failure
import Intake.KeyMap

/-!
# Consumers and topics

A consumer pulls messages of a topic until it is paused.  Consumers here live in the process: they
count how they are signalled, can be made to fail, and can raise signals of their own after they
were resumed.  A registry knows which consumers belong to which topic.
-/

namespace Intake

/-- What moves the count of records in flight. -/
inductive Signal where
  /-- A chunk of so many records arrived. -/
  | admitted (count : UInt64)
  /-- A chunk of so many records arrived again. -/
  | duplicate (count : UInt64)
  /-- A record left the pipeline. -/
  | completed
  deriving DecidableEq, Repr

/-- What a consumer is told. -/
inductive Command where
  | pause
  | resume
  deriving DecidableEq, Repr

/-- The name of a command. -/
def Command.name : Command → String
  | pause => "pause"
  | resume => "resume"

/-- A consumer in the process. -/
structure Consumer where
  paused : Bool
  /-- Whether every command fails. -/
  failing : Bool
  /-- How often it was told to pause. -/
  pauseCalls : Nat
  /-- How often it was told to resume. -/
  resumeCalls : Nat
  /-- What it raises each time that it was resumed. -/
  afterResume : List Signal
  deriving DecidableEq, Repr

namespace Consumer

/-- A consumer that pulls. -/
def fresh : Consumer := ⟨false, false, 0, 0, []⟩

instance : Inhabited Consumer := ⟨fresh⟩

/-- How many messages it asks for: none while it is paused. -/
def demand (consumer : Consumer) : UInt64 := if consumer.paused then 0 else 1

/-- Whether a command would change what the consumer does. -/
def needs (consumer : Consumer) : Command → Bool
  | .pause => 0 < consumer.demand
  | .resume => consumer.demand == 0

/-- Counts a command. -/
def count (consumer : Consumer) : Command → Consumer
  | .pause => { consumer with pauseCalls := consumer.pauseCalls + 1 }
  | .resume => { consumer with resumeCalls := consumer.resumeCalls + 1 }

/-- The consumer after a command; a failing one only counts it. -/
def obey (consumer : Consumer) (command : Command) : Consumer :=
  let counted := consumer.count command
  if consumer.failing then counted else { counted with paused := command == .pause }

/-- What the consumer raises after a command. -/
def raised (consumer : Consumer) : Command → List Signal
  | .pause => []
  | .resume => if consumer.failing then [] else consumer.afterResume

end Consumer

/-- The names of the consumers of each topic, in the order in which they were registered. -/
abbrev Registry := KeyMap String (List String)

namespace Registry

/-- Registers a consumer once more for a topic. -/
def register (registry : Registry) (topic consumer : String) : Registry :=
  registry.insert topic ((registry.get? topic).getD [] ++ [consumer])

/-- The consumers registered for a topic. -/
def handles (registry : Registry) (topic : String) : List String :=
  (registry.get? topic).getD []

/-- The topics, in ascending order. -/
def topics (registry : Registry) : List String :=
  registry.keys.mergeSort fun left right => decide (left ≤ right)

end Registry

/-- The consumers by name, and the topics for which they are registered. -/
structure Fleet where
  consumers : KeyMap String Consumer
  registry : Registry

namespace Fleet

/-- No consumers. -/
def empty : Fleet := ⟨.empty, .empty⟩

instance : Inhabited Fleet := ⟨empty⟩

/-- Adds a consumer of a name, unless there is one. -/
def add (fleet : Fleet) (name : String) : Fleet :=
  if fleet.consumers.contains name then fleet
  else { fleet with consumers := fleet.consumers.insert name .fresh }

/-- Registers a consumer for a topic. -/
def register (fleet : Fleet) (topic name : String) : Fleet :=
  let fleet := fleet.add name
  { fleet with registry := fleet.registry.register topic name }

/-- The consumer of a name. -/
def consumer (fleet : Fleet) (name : String) : Consumer :=
  (fleet.consumers.get? name).getD .fresh

/-- Replaces the consumer of a name. -/
def set (fleet : Fleet) (name : String) (consumer : Consumer) : Fleet :=
  { fleet with consumers := fleet.consumers.insert name consumer }

/-- Makes the commands to a consumer fail, or succeed again. -/
def setFailing (fleet : Fleet) (name : String) (failing : Bool) : Fleet :=
  fleet.set name { fleet.consumer name with failing }

/-- Sets what a consumer raises after it was resumed. -/
def setAfterResume (fleet : Fleet) (name : String) (signals : List Signal) : Fleet :=
  fleet.set name { fleet.consumer name with afterResume := signals }

/-- Gives a command to a consumer: the failure if there is one. -/
def tell (fleet : Fleet) (command : Command) (name : String) : Option ConsumerFailure × Fleet :=
  let consumer := fleet.consumer name
  (if consumer.failing then some (.gone name) else none, fleet.set name (consumer.obey command))

/-- Gives a command to every consumer of a topic. -/
def tellAll (fleet : Fleet) (command : Command) (topic : String) :
    List (Option ConsumerFailure) × Fleet :=
  (fleet.registry.handles topic).foldl
    (fun (results, fleet) name =>
      let (result, fleet) := fleet.tell command name
      (results ++ [result], fleet))
    ([], fleet)

/-- The consumers registered for a topic, with what they ask for. -/
def demands (fleet : Fleet) (topic : String) : List (String × UInt64) :=
  (fleet.registry.handles topic).map fun name => (name, (fleet.consumer name).demand)

end Fleet
end Intake
