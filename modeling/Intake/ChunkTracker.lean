import Intake.Span
import Intake.Uuid

/-!
# Chunks already seen

The broker can deliver a chunk again.  A tracker remembers the chunks of each job and tells a first
delivery from a repeated one.  It holds its chunks for some time; a tracker without capacity or
without time remembers nothing, and a time beyond a thousand years is refused.
-/

namespace Intake

/-- Whether a chunk was seen for the first time. -/
inductive Admission where
  | fresh
  | duplicate
  deriving DecidableEq, Repr

/-- The chunks seen so far. -/
structure ChunkTracker where
  capacity : UInt64
  lifetime : Span
  seen : List (Uuid × String)

namespace ChunkTracker

/-- A thousand years of 365 days, in seconds. -/
def longestSeconds : UInt64 := 31536000000

/-- The report on a lifetime beyond a thousand years. -/
def lifetimeRefusal : String := "time_to_live is longer than 1000 years"

/-- A tracker that has seen nothing, unless its lifetime is refused. -/
def create (capacity : UInt64) (lifetime : Span) : Except String ChunkTracker :=
  if lifetime.le (Span.ofSeconds longestSeconds) then .ok ⟨capacity, lifetime, []⟩
  else .error lifetimeRefusal

/-- Whether the tracker remembers anything. -/
def remembers (tracker : ChunkTracker) : Bool :=
  tracker.capacity != 0 && !tracker.lifetime.isZero

/-- Observes a chunk of a job. -/
def observe (tracker : ChunkTracker) (job : Uuid) (chunk : String) : Admission × ChunkTracker :=
  if tracker.seen.contains (job, chunk) then (.duplicate, tracker)
  else if tracker.remembers then (.fresh, { tracker with seen := (job, chunk) :: tracker.seen })
  else (.fresh, tracker)

end ChunkTracker
end Intake
