import Intake.Backoff
import Intake.Dispatch.Drain
import Intake.Overflow

/-!
# Dispatchers in time

A lane is a dispatcher on a clock of milliseconds that moves only when nothing else can happen.  Its
calls go to a backend, which acts on a world and may let a call wait.  A lane makes only moves that
are steps of its dispatcher; it decides their order:

* the loop fills its places before anything else;
* a flush that is over is collected at once;
* flushes whose timers are due go on in the order in which the timers were set, then new flushes in
  the order of their start; a flush goes on until it has to wait;
* then shutdown is noticed, and last that the loop was woken.

A call that answers exactly at its timeout is in time.
-/

namespace Intake
namespace Dispatch

/-- What a call does next. -/
inductive Motion (Rest : Type) where
  /-- It waits, with the rest of it to come. -/
  | waits (millis : Nat) (rest : Rest)
  | answers (result : Except FlushFailure Unit)

/-- Where calls go.  Every function is told the time. -/
structure Backend (Key Mutation Rest World : Type) where
  /-- Makes a call. -/
  start : Nat → Key → Mutation → World → Except Overflow (Motion Rest × World)
  /-- Goes on with a call after its wait. -/
  resume : Nat → Key → Rest → World → Except Overflow (Motion Rest × World)
  /-- A call was given up. -/
  cut : Nat → Key → Rest → World → World
  /-- The dispatcher reported something. -/
  observe : Nat → Event Key Mutation → World → World

/-- How mutations are flushed. -/
structure Policy where
  /-- How many flushes are made at a time. -/
  places : Nat
  /-- How long one call may take. -/
  timeout : Span
  retry : RetryPolicy

/-- What a timer is for. -/
inductive Reason where
  /-- A call goes on. -/
  | part
  /-- A call is given up. -/
  | deadline
  /-- A call is repeated. -/
  | backoff
  deriving DecidableEq, Repr

/-- A timer of a flush. -/
structure Timer (Key : Type) where
  due : Nat
  /-- Tells which of two timers was set first. -/
  ticket : Nat
  key : Key
  reason : Reason

/-- A dispatcher in time. -/
structure Lane (Key Mutation Rest : Type) where
  policy : Policy
  drain : Drain Key Mutation
  /-- The rests of the calls that wait. -/
  underway : KeyMap Key Rest
  /-- The timers in the order in which they were set. -/
  timers : List (Timer Key)

namespace Lane

variable {Key Mutation Rest : Type}

/-- A dispatcher with nothing to do, parked. -/
def create (policy : Policy) : Lane Key Mutation Rest :=
  ⟨policy, { Drain.initial with stage := .parked }, .empty, []⟩

/-- When the next timer is due. -/
def nextDue (lane : Lane Key Mutation Rest) : Option Nat := (lane.timers.map Timer.due).min?

/-- The ticket of the first timer that is due. -/
def dueTicket (now : Nat) (lane : Lane Key Mutation Rest) : Option Nat :=
  (lane.timers.find? (·.due ≤ now)).map Timer.ticket

/-- Whether someone who waits has to look at the table again, or has found it idle. -/
def isServed (lane : Lane Key Mutation Rest) (ticket : Nat) : Bool :=
  match lane.drain.waiters.get? ticket with
  | none => true
  | some waiter => waiter.notified

/-- Whether the loop has exited. -/
def hasExited (lane : Lane Key Mutation Rest) : Bool := lane.drain.stage == .exited

variable [DecidableEq Key]

/-- Whether a flush has a timer that is due. -/
def isDue (now : Nat) (lane : Lane Key Mutation Rest) (key : Key) (reason : Reason) : Bool :=
  lane.timers.any fun timer => timer.key = key && timer.reason == reason && timer.due ≤ now

/-- Whether a flush can go on. -/
def canGoOn (now : Nat) (lane : Lane Key Mutation Rest) (flush : Flush Key Mutation) : Bool :=
  match flush.phase with
  | .due => true
  | .calling =>
      lane.isDue now flush.key .part || lane.isDue now flush.key .deadline
  | .backingOff _ => lane.isDue now flush.key .backoff || lane.drain.cancelled
  | .over _ => false

/-- Whether the flush of a key can go on. -/
def keyCanGoOn (now : Nat) (lane : Lane Key Mutation Rest) (key : Key) : Bool :=
  (lane.drain.flush? key).any (lane.canGoOn now)

/-- A move of a lane. -/
inductive Move (Key Mutation : Type) where
  /-- The loop acts. -/
  | act (action : Action Key Mutation)
  /-- A flush goes on. -/
  | proceed (key : Key)

/-- The first move of a filling loop. -/
def fillingMove (lane : Lane Key Mutation Rest) : Move Key Mutation :=
  if lane.drain.hasPlace lane.policy.places then
    match lane.drain.table.nextReady with
    | (some _, _) => .act .start
    | (none, _) => if lane.drain.isDone then .act .exit else .act .park
  else
    .act .park

/-- The key of the flush that goes on next. -/
def nextKey? (now : Nat) (lane : Lane Key Mutation Rest) : Option Key :=
  match lane.timers.find? fun timer => lane.keyCanGoOn now timer.key with
  | some timer => some timer.key
  | none => (lane.drain.flushes.find? (lane.canGoOn now)).map Flush.key

/-- The first move of a parked loop. -/
def parkedMove? (now : Nat) (lane : Lane Key Mutation Rest) : Option (Move Key Mutation) :=
  match lane.drain.flushes.find? fun flush => flush.phase matches .over _ with
  | some flush => some (.act (.collect flush.key))
  | none =>
      match lane.nextKey? now with
      | some key => some (.proceed key)
      | none =>
          if lane.drain.cancelled && !lane.drain.draining then some (.act .notice)
          else if lane.drain.permit then some (.act .wake)
          else none

/-- The next move; a flush that is going on comes first. -/
def nextMove? (now : Nat) (lane : Lane Key Mutation Rest) (current : Option Key) :
    Option (Move Key Mutation) :=
  match lane.drain.stage with
  | .exited => none
  | .filling => some lane.fillingMove
  | .parked =>
      match current with
      | some key => if lane.keyCanGoOn now key then some (.proceed key) else lane.parkedMove? now
      | none => lane.parkedMove? now

/-- Sets a timer. -/
def setTimer (lane : Lane Key Mutation Rest) (due ticket : Nat) (key : Key) (reason : Reason) :
    Lane Key Mutation Rest :=
  { lane with timers := lane.timers ++ [⟨due, ticket, key, reason⟩] }

/-- Removes a timer of a flush. -/
def clearTimer (lane : Lane Key Mutation Rest) (key : Key) (reason : Reason) :
    Lane Key Mutation Rest :=
  { lane with timers := lane.timers.filter fun timer => timer.key ≠ key || timer.reason != reason }

/-- Forgets the call of a flush. -/
def endCall (lane : Lane Key Mutation Rest) (key : Key) : Lane Key Mutation Rest :=
  { lane with
    underway := lane.underway.erase key
    timers := lane.timers.filter (·.key ≠ key) }

end Lane

/-- A lane at work, with the world and the ticket of the next timer. -/
structure Turn (Key Mutation Rest World : Type) where
  lane : Lane Key Mutation Rest
  world : World
  ticket : Nat

namespace Turn

variable {Key Mutation Rest World : Type} [DecidableEq Key] [Mergeable Mutation]

/-- Takes a step of the dispatcher, if it is possible. -/
def act (backend : Backend Key Mutation Rest World) (now : Nat) (action : Action Key Mutation)
    (turn : Turn Key Mutation Rest World) : Turn Key Mutation Rest World :=
  match turn.lane.drain.step? turn.lane.policy.places action with
  | none => turn
  | some (drain, events) =>
      { turn with
        lane := { turn.lane with drain }
        world := events.foldl (fun world event => backend.observe now event world) turn.world }

/-- Someone enlists and looks at the table. -/
def await (backend : Backend Key Mutation Rest World) (now ticket : Nat)
    (turn : Turn Key Mutation Rest World) : Turn Key Mutation Rest World :=
  (turn.act backend now (.enlist ticket)).act backend now (.look ticket)

/-- Sets a timer of a flush. -/
def wait (now millis : Nat) (key : Key) (reason : Reason)
    (turn : Turn Key Mutation Rest World) : Turn Key Mutation Rest World :=
  { turn with
    lane := turn.lane.setTimer (now + millis) turn.ticket key reason
    ticket := turn.ticket + 1 }

/-- Ends the call of a flush; if it failed for now, the flush waits before the next one. -/
def answer (backend : Backend Key Mutation Rest World) (now : Nat) (key : Key)
    (result : Except FlushFailure Unit) (turn : Turn Key Mutation Rest World) :
    Turn Key Mutation Rest World :=
  let turn := { turn with lane := turn.lane.endCall key }
  let turn := turn.act backend now (.answer key result)
  match turn.lane.drain.flush? key with
  | some ⟨_, _, failures, .backingOff _⟩ =>
      turn.wait now (turn.lane.policy.retry.delay failures).toMillisUp key .backoff
  | _ => turn

/-- Follows a call to its next wait or its answer. -/
def follow (backend : Backend Key Mutation Rest World) (now : Nat) (key : Key) :
    Motion Rest → Turn Key Mutation Rest World → Turn Key Mutation Rest World
  | .answers result, turn => turn.answer backend now key result
  | .waits millis rest, turn =>
      let known := turn.lane.timers.any fun timer => timer.key = key && timer.reason == .deadline
      let lane := turn.lane.clearTimer key .part
      let turn :=
        { turn with lane := { lane with underway := lane.underway.insert key rest } }
      let turn := turn.wait now millis key .part
      if known then turn
      else turn.wait now turn.lane.policy.timeout.toMillisUp key .deadline

/-- Lets the flush of a key go on. -/
def proceed (backend : Backend Key Mutation Rest World) (now : Nat) (key : Key)
    (turn : Turn Key Mutation Rest World) : Except Overflow (Turn Key Mutation Rest World) :=
  match turn.lane.drain.flush? key with
  | none => .ok turn
  | some flush =>
      match flush.phase with
      | .over _ => .ok turn
      | .due => do
          let turn := turn.act backend now (.call key)
          let (motion, world) ← backend.start now key flush.mutation turn.world
          return { turn with world }.follow backend now key motion
      | .calling =>
          match turn.lane.underway.get? key with
          | none => .ok turn
          | some rest =>
              if turn.lane.isDue now key .part then do
                let (motion, world) ← backend.resume now key rest turn.world
                return { turn with world }.follow backend now key motion
              else
                let turn := { turn with world := backend.cut now key rest turn.world }
                let failure := FlushFailure.timeout turn.lane.policy.timeout
                .ok (turn.answer backend now key (.error failure))
      | .backingOff _ =>
          let action := if turn.lane.isDue now key .backoff then .retry key else .giveUp key
          .ok ({ turn with lane := turn.lane.clearTimer key .backoff }.act backend now action)

/-- Makes moves until none is left; a lane that never rests is stopped when its fuel is spent. -/
def runFrom (backend : Backend Key Mutation Rest World) (now : Nat) :
    Nat → Option Key → Turn Key Mutation Rest World →
      Except Overflow (Turn Key Mutation Rest World)
  | 0, _, turn => .ok turn
  | fuel + 1, current, turn =>
      match turn.lane.nextMove? now current with
      | none => .ok turn
      | some (.act action) => runFrom backend now fuel none (turn.act backend now action)
      | some (.proceed key) => do
          runFrom backend now fuel (some key) (← turn.proceed backend now key)

/-- More moves than a lane makes at one time unless it never rests. -/
def manyMoves : Nat := 1000000

/-- Makes moves until none is left. -/
def run (backend : Backend Key Mutation Rest World) (now : Nat)
    (turn : Turn Key Mutation Rest World) : Except Overflow (Turn Key Mutation Rest World) :=
  runFrom backend now manyMoves none turn

end Turn
end Dispatch
end Intake
