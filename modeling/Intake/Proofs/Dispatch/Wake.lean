import Intake.Proofs.Dispatch.Stages
import Intake.Proofs.Dispatch.Turns

/-!
# No wake is lost

The loop looks for keys that wait before it parks, and only afterwards does it begin to listen for
those that come.  Between the two anyone may submit.  A `Bell` is how the loop is woken: a ring that
nobody hears is kept, and a listener who turns to something else passes his ring on.  A `Vigil` is a
dispatcher whose loop listens to a bell, in steps of its own.  Every run of a vigil is a run of the
dispatcher, and in both no key waits while the loop sleeps beside a free place.  Whoever waits for
the table to be idle is enlisted before he looks at it, so he is notified when it becomes idle.
-/

namespace Intake
namespace Dispatch

/-! ## Those who wait for the loop -/

/-- The loop attends to the keys that wait and to those who wait until the table is idle, given
whether it is still to notice that it was woken. -/
structure Attended {Key Mutation : Type} [DecidableEq Key] [Mergeable Mutation] (limit : Nat)
    (drain : Drain Key Mutation) (woken : Bool) : Prop where
  /-- The loop sleeps only if nothing waits in the line or all places are taken. -/
  sleep : drain.stage = .parked → woken = false →
    drain.table.ready = [] ∨ limit ≤ drain.flushes.length
  /-- While a key waits, the loop was woken or some other work can be done. -/
  stranded : ∀ key, drain.table.IsWaiting key → woken = false →
    ({ drain with permit := false } : Drain Key Mutation).CanWork limit
  /-- Who has found the table busy and was not notified since, waits for a busy table. -/
  busy : ∀ ticket, drain.waiters.get? ticket = some ⟨true, false⟩ → drain.table.isIdle = false
  /-- Who waits returns only when he looks at a table that is idle. -/
  returned : ∀ action next now ticket, drain.step? limit action = some (next, now) →
    .returned ticket ∈ now → action = .look ticket ∧ drain.table.isIdle = true

theorem isEmpty_insert {Key Value : Type} [DecidableEq Key] (map : KeyMap Key Value) (key : Key)
    (value : Value) : (map.insert key value).isEmpty = false := by
  apply Bool.eq_false_iff.mpr
  intro empty
  have held := KeyMap.get?_insert_self map key value
  rw [KeyMap.isEmpty, List.isEmpty_iff] at empty
  simp [KeyMap.get?, empty, KeyMap.find] at held

namespace Drain

variable {Key Mutation : Type} [DecidableEq Key] [Mergeable Mutation] {limit : Nat}
  {drain next : Drain Key Mutation} {action : Action Key Mutation}
  {now : List (Event Key Mutation)}

/-- Whoever has found the table busy and was not notified since, waits for a busy table. -/
def KeepsWaiters (drain : Drain Key Mutation) : Prop :=
  ∀ ticket, drain.waiters.get? ticket = some ⟨true, false⟩ → drain.table.isIdle = false

theorem KeepsWaiters.step (keeps : drain.KeepsWaiters) (taken : Step limit drain action next now) :
    next.KeepsWaiters := by
  intro ticket parked
  cases taken with
  | enqueue opened welcome idle grown =>
      subst grown
      exact isEmpty_insert ..
  | join | start => exact isEmpty_insert ..
  | collect stage held released =>
      obtain ⟨rfl, rfl⟩ := Prod.ext_iff.mp released
      rename_i key mutation failures verdict
      cases idle : (drain.collect key verdict).1.table.isIdle with
      | false => rfl
      | true =>
          -- Everybody who was enlisted is notified as soon as the table is idle.
          have notified : (drain.collect key verdict).1.waiters = notifyAll drain.waiters := by
            unfold Drain.collect at idle ⊢
            exact if_pos idle
          rw [notified, notifyAll, KeyMap.get?_mapValues] at parked
          simp [Option.map_eq_some_iff] at parked
  | enlist =>
      rename_i other fresh
      rw [KeyMap.get?_insert] at parked
      split at parked
      · simp at parked
      · exact keeps ticket parked
  | miss enlisted busy =>
      exact busy
  | find | leave =>
      rw [KeyMap.get?_erase] at parked
      split at parked
      · simp at parked
      · exact keeps ticket parked
  | _ => exact keeps ticket parked

theorem keepsWaiters_of_run {actions : List (Action Key Mutation)}
    {events : List (Event Key Mutation)}
    (run : Drain.initial.run? limit actions = some (drain, events)) : drain.KeepsWaiters :=
  run_induction (motive := fun _ drain _ => drain.KeepsWaiters)
    (by simp [KeepsWaiters, Drain.initial])
    (fun _ _ _ _ _ _ _ keeps taken => keeps.step taken) run

/-- Who waits returns only when he looks at a table that is idle. -/
theorem Step.of_returned (taken : Step limit drain action next now) {ticket : Nat}
    (told : .returned ticket ∈ now) :
    action = .look ticket ∧ drain.table.isIdle = true := by
  cases taken with
  | find enlisted idle =>
      obtain rfl : ticket = _ := by simpa using told
      exact ⟨rfl, idle⟩
  | collect parked held released =>
      obtain ⟨rfl, rfl⟩ := Prod.ext_iff.mp released
      simpa using mem_collect told
  | _ => simp at told

/-- While a key waits and the loop is not to be woken, some work can be done. -/
theorem Staged.canWork_of_waiting (staged : drain.Staged limit) (consistent : drain.Consistent)
    (place : 0 < limit) {key : Key} (waiting : drain.table.IsWaiting key)
    (asleep : drain.permit = false) : drain.CanWork limit := by
  have member := (consistent.mem_ready key).mpr waiting
  cases stage : drain.stage with
  | filling => exact canWork_of_filling stage
  | parked =>
      rcases staged.parked stage asleep with empty | full
      · simp [empty] at member
      · apply canWork_of_flushes stage
        intro none
        rw [none, List.length_nil] at full
        omega
  | exited =>
      have empty := (staged.exited stage).2.2
      simp [empty] at member

theorem attended_of_run (place : 0 < limit) {actions : List (Action Key Mutation)}
    {events : List (Event Key Mutation)}
    (run : Drain.initial.run? limit actions = some (drain, events)) :
    Attended limit drain drain.permit where
  sleep := (staged_of_run place run).parked
  stranded key waiting asleep := by
    have able := (staged_of_run place run).canWork_of_waiting (consistent_of_run run) place
      waiting asleep
    rwa [← asleep]
  busy := keepsWaiters_of_run run
  returned _ _ _ _ taken told := (Step.of_step? taken).of_returned told

end Drain

/-! ## Bells -/

/-- A bell for one listener. -/
inductive Bell where
  /-- Nobody listens. -/
  | quiet
  /-- Nobody listens, and a ring is kept for whoever listens next. -/
  | kept
  | listening
  /-- The listener was rung, and maybe another ring is kept. -/
  | rung (again : Bool)
  deriving DecidableEq, Repr

namespace Bell

/-- The bell after a ring. -/
def ring : Bell → Bell
  | quiet | kept => kept
  | listening => rung false
  | rung _ => rung true

/-- The bell after the listener turned to something else; he passes his ring on. -/
def leave : Bell → Bell
  | quiet | listening => quiet
  | kept | rung _ => kept

/-- Whether a ring is not heeded yet. -/
def isPending : Bell → Bool
  | quiet | listening => false
  | kept | rung _ => true

theorem isPending_ring (bell : Bell) : bell.ring.isPending = true := by
  cases bell <;> rfl

theorem isPending_leave (bell : Bell) : bell.leave.isPending = bell.isPending := by
  cases bell <;> rfl

end Bell

/-! ## Vigils -/

/-- A dispatcher whose loop is woken by a bell. -/
structure Vigil (Key Mutation : Type) where
  drain : Drain Key Mutation
  bell : Bell

namespace Vigil

/-- What can happen. -/
inductive Action (Key Mutation : Type) where
  /-- Anything but that the loop is woken. -/
  | act (action : Dispatch.Action Key Mutation)
  /-- The parked loop begins to listen; a ring that was kept wakes it at once. -/
  | listen
  /-- The parked loop heeds the bell. -/
  | heed

variable {Key Mutation : Type}

/-- A loop that is about to start. -/
def initial : Vigil Key Mutation := ⟨Drain.initial, .quiet⟩

/-- The loop goes round, as it was woken. -/
def rouse (vigil : Vigil Key Mutation) (bell : Bell) : Vigil Key Mutation :=
  ⟨{ vigil.drain with stage := .filling }, bell⟩

/-- Whether the bell is rung: a key begins to wait. -/
def rings (events : List (Event Key Mutation)) : Bool := events.any (·.queued?.isSome)

/-- The bell after a step from one stage to another with its events.  A loop that leaves its place
behind the bell does so before anything it then does rings the bell. -/
def bellAfter (bell : Bell) (before after : Stage) (events : List (Event Key Mutation)) : Bell :=
  let left := if before = .parked ∧ after ≠ .parked then bell.leave else bell
  if rings events then left.ring else left

variable [DecidableEq Key] [Mergeable Mutation]

/-- One step, if it is possible. -/
def step? (limit : Nat) (vigil : Vigil Key Mutation) :
    Action Key Mutation → Option (Vigil Key Mutation × List (Event Key Mutation))
  | .act .wake => none
  | .act action =>
      (vigil.drain.step? limit action).map fun outcome =>
        (⟨outcome.1, bellAfter vigil.bell vigil.drain.stage outcome.1.stage outcome.2⟩, outcome.2)
  | .listen =>
      match vigil.drain.stage, vigil.bell with
      | .parked, .quiet => some (⟨vigil.drain, .listening⟩, [])
      | .parked, .kept => some (vigil.rouse .quiet, [])
      | _, _ => none
  | .heed =>
      match vigil.drain.stage, vigil.bell with
      | .parked, .rung again => some (vigil.rouse (if again then .kept else .quiet), [])
      | _, _ => none

/-- The state and the events after actions that are possible one after the other. -/
def run? (limit : Nat) (vigil : Vigil Key Mutation) (actions : List (Action Key Mutation)) :
    Option (Vigil Key Mutation × List (Event Key Mutation)) :=
  runOf (step? limit) vigil actions

theorem step?_act {limit : Nat} {vigil : Vigil Key Mutation}
    {action : Dispatch.Action Key Mutation} (other : action ≠ .wake) :
    vigil.step? limit (.act action) =
      (vigil.drain.step? limit action).map fun outcome =>
        (⟨outcome.1, bellAfter vigil.bell vigil.drain.stage outcome.1.stage outcome.2⟩,
          outcome.2) := by
  cases action with
  | wake => exact absurd rfl other
  | _ => rfl

omit [DecidableEq Key] [Mergeable Mutation] in
theorem isPending_bellAfter (bell : Bell) (before after : Stage)
    (events : List (Event Key Mutation)) :
    (bellAfter bell before after events).isPending = (bell.isPending || rings events) := by
  unfold bellAfter
  cases rings events with
  | true => simp [Bell.isPending_ring]
  | false =>
      simp only [Bool.false_eq_true, if_false, Bool.or_false]
      split
      · exact Bell.isPending_leave bell
      · rfl

end Vigil

/-! ## Steps that do not wake the loop -/

namespace Drain

variable {Key Mutation : Type}

/-- Two states that differ at most in where the loop is and in whether it was woken. -/
def Alike (drain other : Drain Key Mutation) : Prop :=
  ∃ stage permit, other = { drain with stage, permit }

variable [DecidableEq Key] [Mergeable Mutation] {limit : Nat} {drain next : Drain Key Mutation}
  {action : Action Key Mutation} {now : List (Event Key Mutation)}

omit [Mergeable Mutation] in
theorem rings_collect (drain : Drain Key Mutation) (key : Key) (verdict : Verdict) :
    Vigil.rings (drain.collect key verdict).2 =
      ((drain.table.finish key verdict).1 == .requeued) := by
  unfold Drain.collect
  dsimp only
  cases (drain.table.finish key verdict).1 <;> cases verdict <;> rfl

/-- Only waking the loop depends on whether it was woken, and it is woken when a key begins to
wait. -/
theorem Step.permit (taken : Step limit drain action next now) (other : action ≠ .wake)
    (permit : Bool) :
    Step limit { drain with permit } action
      { next with permit := permit || Vigil.rings now } now := by
  suffices same : ∃ later, later = (permit || Vigil.rings now) ∧
      Step limit { drain with permit } action { next with permit := later } now by
    obtain ⟨_, rfl, same⟩ := same
    exact same
  have silent : permit = (permit || false) := (Bool.or_false permit).symm
  have woken : true = (permit || true) := (Bool.or_true permit).symm
  -- The rule that was taken applies again, as no guard of it is about the permit.
  cases taken with
  | enqueue => exact ⟨_, woken, by constructor <;> assumption⟩
  | collect parked held released =>
      obtain ⟨rfl, rfl⟩ := Prod.ext_iff.mp released
      refine ⟨_, congrArg (permit || ·) (rings_collect ..).symm, ?_⟩
      apply Step.collect
      · exact parked
      · exact held
      · rfl
  | wake => exact absurd rfl other
  | _ => exact ⟨_, silent, by constructor <;> assumption⟩

/-- What those around the loop do does not depend on where it is. -/
theorem Step.around (taken : Step limit drain action next now) (around : action.isWork = false)
    (stage : Stage) : Step limit { drain with stage } action { next with stage } now := by
  cases taken with
  | refuse | ignore | enqueue | join | cancel | enlist | find | miss | leave =>
      constructor <;> assumption
  | _ => simp [Action.isWork] at around

theorem Step.stage_of_around (taken : Step limit drain action next now)
    (around : action.isWork = false) : next.stage = drain.stage := by
  cases taken with
  | refuse | ignore | enqueue | join | cancel | enlist | find | miss | leave => rfl
  | _ => simp [Action.isWork] at around

theorem Step.permit_eq (taken : Step limit drain action next now) (other : action ≠ .wake) :
    next.permit = (drain.permit || Vigil.rings now) := by
  have again := (taken.permit other drain.permit).step?_eq
  have same := taken.step?_eq.symm.trans again
  exact congrArg (·.permit) (Prod.mk.inj (Option.some.inj same)).1

end Drain

/-! ## A dispatcher follows a vigil -/

namespace Vigil

variable {Key Mutation : Type}

/-- What a vigil and a dispatcher of the same run have in common.  The loop of the dispatcher may
have slept on when that of the vigil was woken. -/
structure Mirrors (vigil : Vigil Key Mutation) (drain : Drain Key Mutation) : Prop where
  alike : vigil.drain.Alike drain
  stage : drain.stage = vigil.drain.stage ∨
    (vigil.drain.stage = .filling ∧ drain.stage = .parked)
  pending : drain.permit = true → vigil.bell.isPending = true

namespace Mirrors

variable {vigil next : Vigil Key Mutation} {drain : Drain Key Mutation}

theorem initial : (Vigil.initial : Vigil Key Mutation).Mirrors Drain.initial :=
  ⟨⟨.filling, false, rfl⟩, .inl rfl, by simp [Drain.initial]⟩

variable [DecidableEq Key] [Mergeable Mutation] {limit : Nat} {action : Action Key Mutation}
  {now : List (Event Key Mutation)}

/-- The loop of the dispatcher is woken with that of the vigil if it can be, and sleeps on
otherwise. -/
theorem rouse (mirrors : vigil.Mirrors drain) (parked : vigil.drain.stage = .parked)
    (bell : Bell) :
    ∃ trace after, drain.run? limit trace = some (after, []) ∧
      (vigil.rouse bell).Mirrors after := by
  obtain ⟨⟨stage, permit, rfl⟩, level, -⟩ := mirrors
  obtain rfl : stage = .parked := by simpa [parked] using level
  cases permit with
  | false => exact ⟨[], _, rfl, ⟨_, _, rfl⟩, .inr ⟨rfl, rfl⟩, by simp⟩
  | true => exact ⟨[.wake], _, rfl, ⟨_, _, rfl⟩, .inl rfl, by simp⟩

/-- A loop that sleeps on does what one that goes round does. -/
private theorem act_asleep {flowing moved : Drain Key Mutation}
    {action : Dispatch.Action Key Mutation} {permit : Bool} {bell : Bell}
    (consistent : ({ flowing with stage := .parked, permit } : Drain Key Mutation).Consistent)
    (staged : ({ flowing with stage := .parked, permit } : Drain Key Mutation).Staged limit)
    (filling : flowing.stage = .filling) (taken : Drain.Step limit flowing action moved now)
    (other : action ≠ .wake) (rung : (permit || rings now) = true → bell.isPending = true) :
    ∃ trace after,
      ({ flowing with stage := .parked, permit } : Drain Key Mutation).run? limit trace =
        some (after, now) ∧ Mirrors ⟨moved, bell⟩ after := by
  cases around : action.isWork with
  | false =>
      have stage : moved.stage = .filling := (taken.stage_of_around around).trans filling
      have same := (taken.permit other permit).around around .parked
      exact ⟨[action], _, runOf_singleton.mpr same.step?_eq, ⟨_, _, rfl⟩, .inr ⟨stage, rfl⟩, rung⟩
  | true =>
      cases taken with
      | start _ place found =>
          -- Something waits beside a free place, so the sleeper was woken, too.
          obtain ⟨line, -⟩ := consistent.ready_of_firstWaiting found
          have woken : permit = true := by
            by_contra asleep
            rcases staged.parked rfl (by simpa using asleep) with empty | full
            · simp_all
            · exact Nat.not_lt.mpr full place
          subst woken
          have wake : Drain.Step limit { flowing with stage := .parked, permit := true } .wake
              { flowing with permit := false } [] := by
            rw [filling]
            exact .wake rfl rfl
          have start := (Drain.Step.start filling place found).permit other false
          have both := runOf_cons.mpr ⟨_, _, _, wake.step?_eq, runOf_singleton.mpr start.step?_eq, rfl⟩
          exact ⟨[.wake, .start], _, both, ⟨_, _, rfl⟩, .inl rfl, by simp [rings, Event.queued?]⟩
      | parkFull _ full =>
          exact ⟨[], _, rfl, ⟨_, _, rfl⟩, .inl rfl, by simpa [rings] using rung⟩
      | parkIdle _ place idle more =>
          have empty : flowing.table.ready = [] := consistent.ready_eq_nil idle
          refine ⟨[], _, rfl, ⟨.parked, permit, ?_⟩, .inl rfl, by simpa [rings] using rung⟩
          rw [← empty]
      | exit _ place idle done =>
          -- A sleeper that drains has flushes in progress.
          obtain ⟨draining, none⟩ : flowing.draining = true ∧ flowing.flushes = [] := by
            simpa [Drain.isDone] using done
          exact absurd none (staged.behind rfl draining)
      | _ => simp_all [Action.isWork]

theorem act (mirrors : vigil.Mirrors drain) (consistent : drain.Consistent)
    (staged : drain.Staged limit) {action : Dispatch.Action Key Mutation}
    {moved : Drain Key Mutation} (taken : Drain.Step limit vigil.drain action moved now)
    (other : action ≠ .wake) {bell : Bell}
    (rung : bell.isPending = (vigil.bell.isPending || rings now)) :
    ∃ trace after, drain.run? limit trace = some (after, now) ∧ Mirrors ⟨moved, bell⟩ after := by
  obtain ⟨⟨stage, permit, rfl⟩, place, pending⟩ := mirrors
  have kept : (permit || rings now) = true → bell.isPending = true := by
    rw [rung, Bool.or_eq_true, Bool.or_eq_true]
    exact Or.imp_left pending
  rcases place with rfl | ⟨filling, rfl⟩
  · have same := taken.permit other permit
    exact ⟨[action], _, runOf_singleton.mpr same.step?_eq, ⟨_, _, rfl⟩, .inl rfl, kept⟩
  · exact act_asleep consistent staged filling taken other kept

/-- The dispatcher has a run for every step of the vigil. -/
theorem step (mirrors : vigil.Mirrors drain) (consistent : drain.Consistent)
    (staged : drain.Staged limit) (taken : vigil.step? limit action = some (next, now)) :
    ∃ trace after, drain.run? limit trace = some (after, now) ∧ next.Mirrors after := by
  cases action with
  | act action =>
      by_cases wake : action = .wake
      · subst wake
        simp [step?] at taken
      · rw [step?_act wake, Option.map_eq_some_iff] at taken
        obtain ⟨⟨moved, told⟩, possible, outcome⟩ := taken
        obtain ⟨rfl, rfl⟩ := Prod.mk.inj outcome
        exact mirrors.act consistent staged (.of_step? possible) wake (isPending_bellAfter ..)
  | listen =>
      simp only [step?] at taken
      split at taken
      · rename_i parked quiet
        obtain ⟨rfl, rfl⟩ := Prod.mk.inj (Option.some.inj taken)
        have asleep : drain.permit = true → Bell.quiet.isPending = true := by
          rw [← quiet]
          exact mirrors.pending
        exact ⟨[], drain, rfl, mirrors.alike, mirrors.stage, asleep⟩
      · rename_i parked kept
        obtain ⟨rfl, rfl⟩ := Prod.mk.inj (Option.some.inj taken)
        exact mirrors.rouse parked .quiet
      · simp at taken
  | heed =>
      simp only [step?] at taken
      split at taken
      · rename_i again parked rung
        obtain ⟨rfl, rfl⟩ := Prod.mk.inj (Option.some.inj taken)
        exact mirrors.rouse parked _
      · simp at taken

/-- The vigil has a step for every step of a dispatcher that is where it is. -/
theorem answer (mirrors : vigil.Mirrors drain) (level : drain.stage = vigil.drain.stage)
    {action : Dispatch.Action Key Mutation} {after : Drain Key Mutation}
    (taken : Drain.Step limit drain action after now) :
    ∃ action next, vigil.step? limit action = some (next, now) ∧
      next.Mirrors after ∧ after.stage = next.drain.stage := by
  obtain ⟨⟨stage, permit, rfl⟩, -, pending⟩ := mirrors
  obtain rfl : stage = vigil.drain.stage := level
  by_cases wake : action = .wake
  · subst wake
    cases taken with
    | wake parked woken =>
        have rung := pending woken
        match held : vigil.bell with
        | .quiet | .listening => simp [held, Bell.isPending] at rung
        | .kept =>
            refine ⟨.listen, vigil.rouse .quiet, ?_, ⟨⟨_, _, rfl⟩, .inl rfl, by simp⟩, rfl⟩
            simp_all [step?]
        | .rung again =>
            refine ⟨.heed, vigil.rouse (if again then .kept else .quiet), ?_,
              ⟨⟨_, _, rfl⟩, .inl rfl, by simp⟩, rfl⟩
            simp_all [step?]
  · have own : Drain.Step limit vigil.drain action _ now := taken.permit wake vigil.drain.permit
    refine ⟨.act action, _, by rw [step?_act wake, own.step?_eq, Option.map_some],
      ⟨⟨after.stage, after.permit, rfl⟩, .inl rfl, ?_⟩, rfl⟩
    rw [taken.permit_eq wake, isPending_bellAfter, Bool.or_eq_true, Bool.or_eq_true]
    exact Or.imp_left pending

end Mirrors

variable [DecidableEq Key] [Mergeable Mutation] {limit : Nat} {vigil : Vigil Key Mutation}
  {drain : Drain Key Mutation} {events : List (Event Key Mutation)}

/-- Every run of a vigil is one of the dispatcher. -/
theorem exists_drain_of_run (place : 0 < limit) {actions : List (Action Key Mutation)}
    (run : Vigil.initial.run? limit actions = some (vigil, events)) :
    ∃ trace drain, Drain.initial.run? limit trace = some (drain, events) ∧
      vigil.Mirrors drain := by
  refine runOf_induction (motive := fun _ vigil events => ∃ trace drain,
    Drain.initial.run? limit trace = some (drain, events) ∧ vigil.Mirrors drain) ?_ ?_ run
  · exact ⟨[], _, rfl, .initial⟩
  · rintro _ vigil events action next now _ ⟨trace, drain, front, mirrors⟩ taken
    obtain ⟨more, after, back, mirrors⟩ :=
      mirrors.step (Drain.consistent_of_run front) (Drain.staged_of_run place front) taken
    exact ⟨trace ++ more, after, runOf_append.mpr ⟨_, _, _, front, back, rfl⟩, mirrors⟩

/-- Every run of the dispatcher is one of a vigil. -/
theorem exists_vigil_of_run {actions : List (Dispatch.Action Key Mutation)}
    (run : Drain.initial.run? limit actions = some (drain, events)) :
    ∃ trace vigil, Vigil.initial.run? limit trace = some (vigil, events) ∧
      vigil.Mirrors drain ∧ drain.stage = vigil.drain.stage := by
  refine Drain.run_induction (motive := fun _ drain events => ∃ trace vigil,
    Vigil.initial.run? limit trace = some (vigil, events) ∧
      vigil.Mirrors drain ∧ drain.stage = vigil.drain.stage) ?_ ?_ run
  · exact ⟨[], _, rfl, .initial, rfl⟩
  · rintro _ drain events _ after now _ ⟨trace, vigil, front, mirrors, level⟩ taken
    obtain ⟨action, next, possible, mirrors, level⟩ := mirrors.answer level taken
    refine ⟨trace ++ [action], next, ?_, mirrors, level⟩
    exact runOf_append.mpr ⟨_, _, _, front, runOf_singleton.mpr possible, rfl⟩

/-- What a dispatcher attends to, a vigil of the same run attends to. -/
theorem Mirrors.attended (mirrors : vigil.Mirrors drain)
    (attended : Attended limit drain drain.permit) :
    Attended limit vigil.drain vigil.bell.isPending := by
  obtain ⟨⟨stage, permit, rfl⟩, level, pending⟩ := mirrors
  have asleep : vigil.bell.isPending = false → permit = false := by
    intro silent
    simpa [silent] using pending
  refine ⟨?_, ?_, attended.busy, fun _ _ _ _ taken => (Drain.Step.of_step? taken).of_returned⟩
  · intro parked silent
    obtain rfl : stage = .parked := by simpa [parked] using level
    exact attended.sleep rfl (asleep silent)
  · intro key waiting silent
    rcases level with rfl | ⟨filling, -⟩
    · exact attended.stranded key waiting (asleep silent)
    · exact Drain.canWork_of_filling filling

end Vigil

variable {Key Mutation : Type} [DecidableEq Key] [Mergeable Mutation]

/-- In every reachable state of a dispatcher, and in every reachable state of one whose loop listens
to a bell in steps of its own, no key is left waiting by a loop that sleeps, and whoever waits for
the table to be idle is notified when it is.  Both have the same runs. -/
theorem no_wake_is_lost (configured : Nat) :
    (∀ actions (drain : Drain Key Mutation) events,
      Drain.initial.run? (places configured) actions = some (drain, events) →
        Attended (places configured) drain drain.permit ∧
          ∃ trace vigil, Vigil.initial.run? (places configured) trace = some (vigil, events) ∧
            vigil.drain.Alike drain) ∧
      ∀ actions (vigil : Vigil Key Mutation) events,
        Vigil.initial.run? (places configured) actions = some (vigil, events) →
          Attended (places configured) vigil.drain vigil.bell.isPending ∧
            ∃ trace drain, Drain.initial.run? (places configured) trace = some (drain, events) ∧
              vigil.drain.Alike drain := by
  have place := Drain.places_pos configured
  constructor
  · intro actions drain events run
    obtain ⟨trace, vigil, same, mirrors, -⟩ := Vigil.exists_vigil_of_run run
    exact ⟨Drain.attended_of_run place run, trace, vigil, same, mirrors.alike⟩
  · intro actions vigil events run
    obtain ⟨trace, drain, same, mirrors⟩ := Vigil.exists_drain_of_run place run
    exact ⟨mirrors.attended (Drain.attended_of_run place same), trace, drain, same, mirrors.alike⟩

/-- One key comes after the loop has parked and before it listens, one while it listens, and one
while its only place is taken.  Someone waits for the table to be idle. -/
def betweenLooks : List (Vigil.Action Nat (List Nat)) :=
  [.act .park, .act (.submit 1 [10]), .listen, .act .start, .act .park, .listen,
    .act (.submit 2 [20]), .act (.enlist 0), .act (.look 0), .heed, .act .park, .listen,
    .act (.call 1), .act (.submit 3 [30]), .act (.answer 1 (.ok ())), .act (.collect 1),
    .act .start, .act .park, .listen, .act .park, .listen]

theorem betweenLooks_wakes :
    ∃ vigil events, Vigil.initial.run? (places 0) betweenLooks = some (vigil, events) ∧
      vigil.drain.stage = .parked ∧ vigil.bell = .listening ∧
        vigil.drain.waiters.get? 0 = some ⟨true, false⟩ ∧
          (vigil.drain.table.ready = [] ∨ places 0 ≤ vigil.drain.flushes.length) ∧
            vigil.drain.table.isIdle = false := by
  have outcome : ((Vigil.initial.run? (places 0) betweenLooks).map fun outcome =>
      (outcome.1.drain.stage, outcome.1.bell, outcome.1.drain.waiters.get? 0)) =
      some (.parked, .listening, some ⟨true, false⟩) := by decide +kernel
  obtain ⟨⟨vigil, events⟩, run, found⟩ := Option.map_eq_some_iff.mp outcome
  obtain ⟨parked, rest⟩ := Prod.mk.inj found
  obtain ⟨listening, enlisted⟩ := Prod.mk.inj rest
  have attended := ((no_wake_is_lost 0).2 _ _ _ run).1
  have silent : vigil.bell.isPending = false := by rw [listening, Bell.isPending]
  exact ⟨vigil, events, run, parked, listening, enlisted, attended.sleep parked silent,
    attended.busy 0 enlisted⟩

end Dispatch
end Intake
