import Intake.Proofs.Dispatch.Standing

/-!
# Stages of the loop

`Drain.Staged` says what follows from where the loop is: while it is parked nothing waits that it
could start, unless it was woken; once it drains it parks only behind flushes; and when it has
exited nothing is left.  `Drain.CanWork` says that the loop or one of its flushes can go on,
whatever a call that is under way is answered.
-/

namespace Intake
namespace Dispatch

/-- Whether an action is work of the loop or of its flushes, and not of those around them. -/
def Action.isWork {Key Mutation : Type} : Action Key Mutation → Bool
  | start | park | exit | call _ | answer _ _ | retry _ | giveUp _ | collect _ | wake
  | notice => true
  | submit .. | cancel | enlist _ | look _ | leave _ => false

namespace Drain

variable {Key Mutation : Type}

/-! ## Where the loop is -/

/-- What follows from where the loop is. -/
structure Staged (limit : Nat) (drain : Drain Key Mutation) : Prop where
  /-- The table is closed once the loop has noticed that shutdown was requested. -/
  closed : drain.table.closed = drain.draining
  cancelled : drain.draining = true → drain.cancelled = true
  /-- A loop that parks has nothing to start or no place for it, or it was woken since. -/
  parked : drain.stage = .parked → drain.permit = false →
    drain.table.ready = [] ∨ limit ≤ drain.flushes.length
  /-- A loop that drains parks only behind flushes. -/
  behind : drain.stage = .parked → drain.draining = true → drain.flushes ≠ []
  exited : drain.stage = .exited →
    drain.draining = true ∧ drain.flushes = [] ∧ drain.table.ready = []

namespace Staged

variable {limit : Nat} {drain next : Drain Key Mutation}

theorem initial : (Drain.initial : Drain Key Mutation).Staged limit where
  closed := rfl
  cancelled := by simp [Drain.initial]
  parked := by simp [Drain.initial]
  behind := by simp [Drain.initial]
  exited := by simp [Drain.initial]

/-- A loop that fills its places has only the table to agree with. -/
private theorem filling (closed : next.table.closed = next.draining)
    (cancelled : next.draining = true → next.cancelled = true) (stage : next.stage = .filling) :
    next.Staged limit where
  closed := closed
  cancelled := cancelled
  parked := by simp [stage]
  behind := by simp [stage]
  exited := by simp [stage]

variable [DecidableEq Key]

/-- A flush that goes on changes nothing of it. -/
private theorem setFlush (staged : drain.Staged limit) (flush : Flush Key Mutation) :
    (drain.setFlush flush).Staged limit where
  closed := staged.closed
  cancelled := staged.cancelled
  parked := by
    rw [length_setFlush]
    exact staged.parked
  behind := by
    intro parked draining
    have some := staged.behind parked draining
    simpa [Drain.setFlush] using some
  exited := by
    intro exited
    have left := staged.exited exited
    simpa [Drain.setFlush] using left

variable [Mergeable Mutation] {action : Action Key Mutation} {now : List (Event Key Mutation)}

/-- Every step of a loop with a place keeps it. -/
theorem step (staged : drain.Staged limit) (place : 0 < limit)
    (taken : Step limit drain action next now) : next.Staged limit := by
  cases taken with
  | refuse | ignore => exact staged
  | enqueue opened welcome idle grown =>
      subst grown
      refine ⟨staged.closed, staged.cancelled, by simp, staged.behind, ?_⟩
      intro exited
      have draining := (staged.exited exited).1
      simp [← staged.closed, opened] at draining
  | join | enlist | find | miss | leave =>
      exact ⟨staged.closed, staged.cancelled, staged.parked, staged.behind, staged.exited⟩
  | cancel => exact ⟨staged.closed, fun _ => rfl, staged.parked, staged.behind, staged.exited⟩
  | start stage =>
      exact filling staged.closed staged.cancelled stage
  | parkFull stage full =>
      refine ⟨staged.closed, staged.cancelled, fun _ _ => .inr full, ?_, by simp⟩
      rintro _ _ none
      rw [show drain.flushes = [] from none, List.length_nil] at full
      omega
  | parkIdle stage free idle more =>
      refine ⟨staged.closed, staged.cancelled, fun _ _ => .inl rfl, ?_, by simp⟩
      intro _ draining none
      simp_all [isDone]
  | exit stage free idle done =>
      obtain ⟨draining, empty⟩ : drain.draining = true ∧ drain.flushes = [] := by
        simpa [isDone] using done
      exact ⟨staged.closed, staged.cancelled, by simp, by simp, fun _ => ⟨draining, empty, rfl⟩⟩
  | call | succeed | reject | backOff | abandon | retry | giveUp => exact staged.setFlush _
  | collect parked held released =>
      obtain ⟨rfl, rfl⟩ := Prod.ext_iff.mp released
      exact filling ((closed_collect ..).trans staged.closed) staged.cancelled rfl
  | wake => exact filling staged.closed staged.cancelled rfl
  | notice parked cancelled => exact filling rfl (fun _ => cancelled) rfl

end Staged

variable [DecidableEq Key]

/-- What follows from where the loop is holds in every reachable state. -/
theorem staged_of_run [Mergeable Mutation] {limit : Nat} (place : 0 < limit)
    {actions : List (Action Key Mutation)} {drain : Drain Key Mutation}
    {events : List (Event Key Mutation)}
    (run : Drain.initial.run? limit actions = some (drain, events)) : drain.Staged limit :=
  run_induction (motive := fun _ drain _ => drain.Staged limit) .initial
    (fun _ _ _ _ _ _ _ staged taken => staged.step place taken) run

theorem places_pos (configured : Nat) : 0 < places configured :=
  Nat.lt_of_lt_of_le Nat.zero_lt_one (Nat.le_max_left ..)

/-- Where nobody waits and nothing is being flushed, the table is idle. -/
theorem Consistent.isIdle {drain : Drain Key Mutation} (consistent : drain.Consistent)
    (ready : drain.table.ready = []) (flushes : drain.flushes = []) :
    drain.table.isIdle = true := by
  have absent : ∀ key, drain.table.states.get? key = none := by
    intro key
    cases held : drain.table.states.get? key with
    | none => rfl
    | some slot =>
        cases slot with
        | waiting mutation =>
            have member := (consistent.mem_ready key).mpr ⟨mutation, held⟩
            simp [ready] at member
        | flushing next =>
            have member := (consistent.mem_flushes key).mpr ⟨next, held⟩
            simp [flushes] at member
  have empty : drain.table.states.keys = [] :=
    List.eq_nil_iff_forall_not_mem.mpr fun key => KeyMap.get?_eq_none_iff.mp (absent key)
  simpa [Table.isIdle, KeyMap.isEmpty, KeyMap.keys] using empty

/-! ## Going on -/

section CanWork

variable [Mergeable Mutation] {limit : Nat} {drain : Drain Key Mutation}

/-- The loop or one of its flushes can go on by itself, or a call is under way of which every answer
can be taken. -/
def CanWork (limit : Nat) (drain : Drain Key Mutation) : Prop :=
  (∃ action, action.isWork = true ∧ (∀ key result, action ≠ .answer key result) ∧
    (drain.step? limit action).isSome = true) ∨
  ∃ key, ∀ result, (drain.step? limit (.answer key result)).isSome = true

/-- A loop that fills its places can start a flush, park or exit. -/
theorem canWork_of_filling (filling : drain.stage = .filling) : drain.CanWork limit := by
  left
  cases free : drain.hasPlace limit with
  | false => exact ⟨.park, rfl, by simp, by simp [step?, filling, free]⟩
  | true =>
      rcases found : drain.table.nextReady with ⟨_ | ⟨key, mutation⟩, table⟩
      · cases done : drain.isDone with
        | true => exact ⟨.exit, rfl, by simp, by simp [step?, filling, free, found, done]⟩
        | false => exact ⟨.park, rfl, by simp, by simp [step?, filling, free, found, done]⟩
      · exact ⟨.start, rfl, by simp, by simp [step?, filling, free, found]⟩

/-- A parked loop with a flush in progress can go on with that flush. -/
theorem canWork_of_flushes (parked : drain.stage = .parked) (some : drain.flushes ≠ []) :
    drain.CanWork limit := by
  obtain ⟨first, rest, flushes⟩ := List.exists_cons_of_ne_nil some
  have held : drain.flush? first.key = .some first := by simp [flush?, flushes]
  obtain ⟨key, mutation, failures, phase⟩ := first
  cases phase with
  | due => exact .inl ⟨.call key, rfl, by simp, by simp [step?, parked, held]⟩
  | calling => exact .inr ⟨key, fun result => by simp [step?, parked, held]⟩
  | backingOff => exact .inl ⟨.retry key, rfl, by simp, by simp [step?, parked, held]⟩
  | «over» => exact .inl ⟨.collect key, rfl, by simp, by simp [step?, parked, held]⟩

end CanWork

end Drain
end Dispatch
end Intake
