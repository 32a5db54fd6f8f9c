import Intake.Proofs.Dispatch.Ledger
import Intake.Proofs.Dispatch.Stages
import Intake.Proofs.Dispatch.Turns
import Intake.Proofs.Dispatch.Workload

/-!
# Shutdown

Once shutdown was noticed the table is closed, and what is left of a dispatcher comes to an end.  A
flush that fails once more is abandoned, so few calls can follow; every piece of work brings the end
nearer, and until the loop has exited some work can be done.  When it has exited every mutation was
persisted or was lost with a report of its key, and nothing changes the table any more.
-/

namespace Intake
namespace Dispatch

/-! ## Calls that can follow -/

/-- How many calls can follow at most: one of the flush in progress and one of what waits. -/
def Slot.calls {Mutation : Type} : Slot Mutation → Nat
  | waiting _ | flushing none => 1
  | flushing (some _) => 2

/-- How many calls a flush still makes if the next failure ends it. -/
def Phase.calls : Phase → Nat
  | .due | .backingOff _ => 1
  | .calling | .over _ => 0

namespace Standing

variable {Key Mutation : Type}

/-- How many calls of a key can follow if nothing more is accepted for it and the next failure of a
flush ends it. -/
def calls : Standing Mutation → Nat
  | idle => 0
  | waiting _ => 1
  | flushing _ phase next => phase.calls + next.toList.length

/-- Calls are made at the expense of those that can follow. -/
theorem Step.calls_le [Mergeable Mutation] {key : Key} {standing later : Standing Mutation}
    {now : List (Event Key Mutation)} (taken : Step key standing later now)
    (accepted : ∀ mutation joined, .accepted key mutation joined ∉ now)
    (retrying : ∀ failure, .retrying key failure ∉ now) :
    (now.filterMap Event.handed?).length + later.calls ≤ standing.calls := by
  cases taken with
  | enqueue | join | follow | followJoin => simp at accepted
  | backOff => simp at retrying
  | refuse => simp [List.filterMap_cons, Event.handed?]
  | rest | ignore | start | call | succeed | reject | abandon | retry | giveUp | release | requeue
  | discard | forsake => simp [calls, Phase.calls, List.filterMap_cons, Event.handed?]

end Standing

/-- The calls of a key are those of its history. -/
theorem count_called {Key Mutation : Type} [DecidableEq Key] (key : Key)
    (events : List (Event Key Mutation)) :
    (events.filterMap Event.called?).count key =
      ((history key events).filterMap Event.handed?).length := by
  rw [List.count, List.countP_filterMap, List.length_filterMap_eq_countP, history,
    List.countP_filter]
  apply List.countP_congr
  intro event _
  cases event <;> simp [Event.called?, Event.handed?, Event.key?]

/-! ## Work that is left -/

/-- How much work a key takes: a mutation that waits behind a flush will wake the loop. -/
def Slot.work {Mutation : Type} : Slot Mutation → Nat
  | waiting _ => 5
  | flushing none => 0
  | flushing (some _) => 7

/-- How much work a flush takes, with that of the loop when it is over. -/
def Phase.work : Phase → Nat
  | .backingOff _ => 5
  | .due => 4
  | .calling => 3
  | .over _ => 2

namespace Drain

variable {Key Mutation : Type} [DecidableEq Key]

/-- How much work the loop has by itself: to notice that it was woken, and to park. -/
def rounds (drain : Drain Key Mutation) : Nat :=
  (if drain.permit then 2 else 0) + if drain.stage = .filling then 1 else 0

/-- How much work is left if nothing more is accepted. -/
def work (drain : Drain Key Mutation) : Nat :=
  drain.weight Slot.work Phase.work + drain.rounds

variable {drain : Drain Key Mutation}

/-- A flush that goes on leaves less to do. -/
private theorem work_setFlush_le (consistent : drain.Consistent) {key : Key} {mutation : Mutation}
    {failures more : Nat} {phase after : Phase}
    (held : drain.flush? key = some ⟨key, mutation, failures, phase⟩)
    (less : after.work + 1 ≤ phase.work) :
    (drain.setFlush ⟨key, mutation, more, after⟩).work + 1 ≤ drain.work := by
  have change : (drain.setFlush ⟨key, mutation, more, after⟩).weight Slot.work Phase.work +
      phase.work = drain.weight Slot.work Phase.work + after.work :=
    weight_setFlush _ _ consistent ⟨key, mutation, more, after⟩ held
  have rounds : (drain.setFlush ⟨key, mutation, more, after⟩).rounds = drain.rounds := rfl
  unfold work
  omega

/-- A flush that is over leaves less to do when it is taken note of. -/
private theorem work_collect_le (consistent : drain.Consistent) (parked : drain.stage = .parked)
    {key : Key} {mutation : Mutation} {failures : Nat} {verdict : Verdict}
    (held : drain.flush? key = some ⟨key, mutation, failures, .over verdict⟩) :
    (drain.collect key verdict).1.work + 1 ≤ drain.work := by
  obtain ⟨next, flushing⟩ := consistent.isFlushing_of_flush? held
  have change := weight_collect Slot.work Phase.work consistent held flushing
  have rounds : (drain.collect key verdict).1.rounds ≤
      drain.rounds + 1 + (verdict.returned next).elim 0 fun _ => 2 := by
    unfold Drain.rounds Drain.collect
    rw [Table.finish_of_flushing flushing verdict]
    cases verdict <;> cases next <;> cases drain.permit <;> simp [parked, Verdict.returned]
  unfold work
  cases verdict <;> cases next <;>
    simp only [Slot.work, Phase.work, Verdict.returned, Option.elim_none, Option.elim_some]
      at change rounds <;>
    omega

variable [Mergeable Mutation] {limit : Nat} {next : Drain Key Mutation}
  {action : Action Key Mutation} {now : List (Event Key Mutation)}

/-- A closed table stays closed and accepts nothing. -/
theorem Step.of_closed (taken : Step limit drain action next now)
    (closed : drain.table.closed = true) :
    next.table.closed = true ∧ ∀ key mutation joined, .accepted key mutation joined ∉ now := by
  cases taken with
  | enqueue opened | join opened => simp [closed] at opened
  | collect parked held released =>
      obtain ⟨rfl, rfl⟩ := Prod.ext_iff.mp released
      refine ⟨(closed_collect ..).trans closed, fun key mutation joined member => ?_⟩
      simpa using mem_collect member
  | notice => exact ⟨rfl, by simp⟩
  | _ => exact ⟨closed, by simp⟩

/-- After a request to shut down no failed call is to be repeated. -/
theorem Step.of_cancelled (taken : Step limit drain action next now)
    (cancelled : drain.cancelled = true) (key : Key) (failure : FlushFailure) :
    .retrying key failure ∉ now := by
  cases taken with
  | backOff parked held retryable running => simp [cancelled] at running
  | collect parked held released =>
      obtain ⟨rfl, rfl⟩ := Prod.ext_iff.mp released
      intro member
      simpa using mem_collect member
  | _ => simp

/-- Work is done at the expense of what is left. -/
theorem Step.work_le (taken : Step limit drain action next now) (consistent : drain.Consistent)
    (staged : drain.Staged limit) (closed : drain.table.closed = true) :
    next.work + (if action.isWork then 1 else 0) ≤ drain.work := by
  have draining : drain.draining = true := staged.closed.symm.trans closed
  cases taken with
  | enqueue opened | join opened => simp [closed] at opened
  | notice parked cancelled unaware => simp [draining] at unaware
  | backOff parked held retryable running => simp [staged.cancelled draining] at running
  | refuse | ignore | cancel | enlist | find | miss | leave => exact Nat.le_refl _
  | start filling place found =>
      rename_i key mutation rest
      have held := (consistent.ready_of_firstWaiting found).2
      have change := weight_start Slot.work Phase.work rest held
      simp only [work, rounds, Slot.work, Phase.work, Action.isWork, if_true] at change ⊢
      omega
  | parkFull filling | parkIdle filling | exit filling =>
      simp [work, weight, rounds, Action.isWork, filling, Nat.add_assoc]
  | call parked held | succeed parked held | reject parked held | abandon parked held
  | retry parked held | giveUp parked cancelled held =>
      exact work_setFlush_le consistent held (by simp [Phase.work])
  | collect parked held released =>
      obtain ⟨rfl, rfl⟩ := Prod.ext_iff.mp released
      exact work_collect_le consistent parked held
  | wake parked permit =>
      simp [work, weight, rounds, Action.isWork, parked, permit]

/-- A loop that has exited leaves the table alone. -/
theorem Step.of_exited (taken : Step limit drain action next now) (staged : drain.Staged limit)
    (exited : drain.stage = .exited) : next.table = drain.table ∧ next.stage = .exited := by
  cases taken with
  | enqueue opened | join opened =>
      have closed := staged.closed.trans (staged.exited exited).1
      simp [closed] at opened
  | start stage | parkFull stage | parkIdle stage | exit stage => simp [exited] at stage
  | call parked | succeed parked | reject parked | backOff parked | abandon parked | retry parked
  | giveUp parked | collect parked | wake parked | notice parked => simp [exited] at parked
  | refuse | ignore | cancel | enlist | find | miss | leave => exact ⟨rfl, exited⟩

/-! ## The end of a run -/

/-- What a dispatcher whose table was closed came to by later actions. -/
structure WindsDown (limit : Nat) (drain : Drain Key Mutation)
    (actions : List (Action Key Mutation)) (next : Drain Key Mutation)
    (events : List (Event Key Mutation)) : Prop where
  consistent : next.Consistent
  staged : next.Staged limit
  closed : next.table.closed = true
  accepted : ∀ key mutation joined, .accepted key mutation joined ∉ events
  calls : ∀ key, (events.filterMap Event.called?).count key + (next.standing key).calls ≤
    (drain.standing key).calls
  work : actions.countP Action.isWork + next.work ≤ drain.work

theorem WindsDown.step {actions : List (Action Key Mutation)} {later : Drain Key Mutation}
    {events : List (Event Key Mutation)} (winds : WindsDown limit drain actions next events)
    (place : 0 < limit) (taken : Step limit next action later now) :
    WindsDown limit drain (actions ++ [action]) later (events ++ now) := by
  obtain ⟨consistent, staged, closed, accepted, calls, work⟩ := winds
  obtain ⟨stays, silent⟩ := taken.of_closed closed
  have cancelled := staged.cancelled (staged.closed.symm.trans closed)
  refine ⟨consistent.step taken, staged.step place taken, stays, ?_, ?_, ?_⟩
  · intro key mutation joined member
    rcases List.mem_append.mp member with before | here
    · exact accepted key mutation joined before
    · exact silent key mutation joined here
  · intro key
    have own := (consistent.standing_step taken key).calls_le
      (fun mutation joined member => silent key mutation joined (mem_history.mp member).1)
      (fun failure member => taken.of_cancelled cancelled key failure (mem_history.mp member).1)
    rw [← count_called] at own
    have before := calls key
    rw [List.filterMap_append, List.count_append]
    omega
  · have less := taken.work_le consistent staged closed
    rw [List.countP_append, List.countP_singleton]
    omega

theorem windsDown_of_run (place : 0 < limit) (consistent : drain.Consistent)
    (staged : drain.Staged limit) (closed : drain.table.closed = true)
    {actions : List (Action Key Mutation)} {events : List (Event Key Mutation)}
    (run : drain.run? limit actions = some (next, events)) :
    WindsDown limit drain actions next events :=
  run_induction (motive := WindsDown limit drain)
    ⟨consistent, staged, closed, by simp, by simp, by simp⟩
    (fun _ _ _ _ _ _ _ winds taken => winds.step place taken) run

/-- After the loop has exited nothing changes the table. -/
theorem table_of_exited (place : 0 < limit) (staged : drain.Staged limit)
    (exited : drain.stage = .exited) {actions : List (Action Key Mutation)}
    {events : List (Event Key Mutation)}
    (run : drain.run? limit actions = some (next, events)) : next.table = drain.table := by
  have kept : next.Staged limit ∧ next.stage = .exited ∧ next.table = drain.table := by
    refine run_induction (motive := fun _ next _ =>
      next.Staged limit ∧ next.stage = .exited ∧ next.table = drain.table)
      ⟨staged, exited, rfl⟩ ?_ run
    rintro actions middle events action next now _ ⟨staged, exited, table⟩ taken
    obtain ⟨same, stays⟩ := taken.of_exited staged exited
    exact ⟨staged.step place taken, stays, same.trans table⟩
  exact kept.2.2

omit [Mergeable Mutation] in
/-- A key can be called once for its flush and once for what waits. -/
theorem calls_standing_le (drain : Drain Key Mutation) (key : Key) :
    (drain.standing key).calls ≤ ((drain.table.states.get? key).map Slot.calls).getD 0 := by
  cases held : drain.table.states.get? key with
  | none => simp [standing_of_absent held, Standing.calls]
  | some slot =>
      cases slot with
      | waiting mutation => simp [standing_of_waiting held, Standing.calls, Slot.calls]
      | flushing next =>
          cases flying : drain.flush? key with
          | none => simp [standing, held, flying, Standing.calls]
          | some flush =>
              have phase : flush.phase.calls ≤ 1 := by
                unfold Phase.calls
                split <;> simp
              rw [standing_of_flushing held flying]
              cases next with
              | none => simpa [Standing.calls, Slot.calls] using phase
              | some mutation => simpa [Standing.calls, Slot.calls] using phase

end Drain

/-- What became of a settled block was reported: a call was successful, or the key was lost. -/
def Settled.Told {Key Mutation : Type} [Mergeable Mutation] (settled : Settled Mutation) (key : Key)
    (events : List (Event Key Mutation)) : Prop :=
  match settled.fate with
  | .persisted => .answered key settled.block.merged .ok ∈ events
  | .rejected failure _ => .rejected key failure ∈ events
  | .abandoned failure _ => .abandoned key failure ∈ events

namespace Ledger.Accounts

variable {Key Mutation : Type} [Mergeable Mutation] {ledger : Ledger Mutation}

/-- All blocks of an idle key are settled. -/
theorem settled_of_idle {past : List (Event Key Mutation)} (accounts : ledger.Accounts .idle past) :
    Ledger.Accounts ⟨ledger.settled, none, none⟩ .idle past := by
  obtain ⟨settled, flight, queued⟩ := ledger
  obtain rfl : flight = none := Option.map_eq_none_iff.mp accounts.flight.symm
  obtain rfl : queued = none := Option.map_eq_none_iff.mp accounts.queued.symm
  exact accounts

variable [DecidableEq Key] {key : Key} {events : List (Event Key Mutation)}

/-- What became of each settled block was reported. -/
theorem told {standing : Standing Mutation}
    (accounts : ledger.Accounts standing (history key events))
    {settled : Settled Mutation} (member : settled ∈ ledger.settled) : settled.Told key events := by
  have lost : ∀ verdict, settled.fate.loss? = some verdict →
      ∃ event ∈ Drain.verdictEvents key verdict, event ∈ events := by
    intro verdict loss
    rw [← mem_losses, accounts.losses]
    exact List.mem_filterMap.mpr ⟨settled, member, loss⟩
  cases fate : settled.fate with
  | persisted =>
      rw [Settled.Told, fate]
      have kept : settled.kept? = some settled.block.merged := by rw [Settled.kept?, fate]
      apply mem_persisted.mp
      rw [accounts.persisted]
      exact List.mem_filterMap.mpr ⟨settled, member, kept⟩
  | rejected | abandoned =>
      obtain ⟨event, told, reported⟩ := lost _ (by rw [fate]; rfl)
      rw [List.mem_singleton.mp told] at reported
      rwa [Settled.Told, fate]

end Ledger.Accounts

namespace Drain

variable {Key Mutation : Type} [DecidableEq Key] [Mergeable Mutation]
  {actions continuation : List (Action Key Mutation)} {drain final : Drain Key Mutation}
  {events later : List (Event Key Mutation)}

/-- Nothing is left, and of every mutation that was accepted it was reported what became of it. -/
structure Drained (drain : Drain Key Mutation) (events : List (Event Key Mutation)) : Prop where
  idle : drain.table.isIdle = true
  ready : drain.table.ready = []
  flushes : drain.flushes = []
  /-- The accepted mutations of a key are those of settled blocks: each block was persisted by a
  call of its own or was lost, and that was reported. -/
  settled : ∀ key, ∃ settled : List (Settled Mutation),
    Ledger.Accounts ⟨settled, none, none⟩ (drain.standing key) (history key events) ∧
      ∀ entry ∈ settled, entry.Told key events

omit [Mergeable Mutation] in
theorem standing_of_isIdle (idle : drain.table.isIdle = true) (key : Key) :
    drain.standing key = .idle := by
  have empty : drain.table.states.entries = [] := by
    simpa [Table.isIdle, KeyMap.isEmpty] using idle
  exact standing_of_absent (by simp [KeyMap.get?, empty, KeyMap.find])

theorem drained_of_exited {limit : Nat} (place : 0 < limit)
    (run : Drain.initial.run? limit actions = some (drain, events))
    (exited : drain.stage = .exited) : drain.Drained events := by
  have consistent := consistent_of_run run
  obtain ⟨_, flushes, ready⟩ := (staged_of_run place run).exited exited
  have idle := consistent.isIdle ready flushes
  refine ⟨idle, ready, flushes, fun key => ?_⟩
  obtain ⟨ledger, accounts⟩ := ledger_of_run run key
  rw [standing_of_isIdle idle] at accounts ⊢
  exact ⟨ledger.settled, accounts.settled_of_idle, fun entry member => accounts.told member⟩

/-- Once the table is closed, whatever happens and whatever the calls are answered: few calls
follow, so does little work, and until the loop has exited some work can be done; nothing is
accepted; and when the loop has exited nothing is left and nothing changes the table any more. -/
theorem shutdown_drains (configured : Nat)
    (run : Drain.initial.run? (places configured) actions = some (drain, events))
    (closed : drain.table.closed = true)
    (continued : drain.run? (places configured) continuation = some (final, later)) :
    (∀ key, (later.filterMap Event.called?).count key ≤
        ((drain.table.states.get? key).map Slot.calls).getD 0) ∧
      (later.filterMap Event.called?).length ≤ drain.table.states.total Slot.calls ∧
      continuation.countP Action.isWork ≤ drain.work ∧
      (final.stage ≠ .exited → final.CanWork (places configured)) ∧
      (∀ key mutation joined, .accepted key mutation joined ∉ later) ∧
      (final.stage = .exited → final.Drained (events ++ later) ∧
        ∀ more last rest, final.run? (places configured) more = some (last, rest) →
          last.table = final.table) := by
  have place := places_pos configured
  have winds := windsDown_of_run place (consistent_of_run run) (staged_of_run place run) closed
    continued
  have calls : ∀ key, (later.filterMap Event.called?).count key ≤
      ((drain.table.states.get? key).map Slot.calls).getD 0 := by
    intro key
    have before := winds.calls key
    have most := calls_standing_le drain key
    omega
  have whole : Drain.initial.run? (places configured) (actions ++ continuation) =
      some (final, events ++ later) := runOf_append.mpr ⟨_, _, _, run, continued, rfl⟩
  refine ⟨calls, KeyMap.length_le_total Slot.calls calls, ?_, ?_, winds.accepted, ?_⟩
  · have work := winds.work
    omega
  · intro going
    cases stage : final.stage with
    | exited => exact absurd stage going
    | filling => exact canWork_of_filling stage
    | parked =>
        have draining := winds.staged.closed.symm.trans winds.closed
        exact canWork_of_flushes stage (winds.staged.behind stage draining)
  · intro exited
    exact ⟨drained_of_exited place whole exited,
      fun _ _ _ more => table_of_exited place winds.staged exited more⟩

/-- Shutdown finds the flush of one key waiting for its next call with a mutation behind it, and
another key waiting. -/
def beforeShutdown : List (Action Nat (List Nat)) :=
  [.submit 1 [10], .start, .park, .call 1, .submit 1 [11], .submit 2 [20],
    .answer 1 (.error (.transient "down")), .cancel, .notice]

/-- The first key makes one more call and waits again, the other key is rejected, and what waited
is abandoned. -/
def afterShutdown : List (Action Nat (List Nat)) :=
  [.park, .retry 1, .call 1, .submit 2 [21], .answer 1 (.ok ()), .collect 1, .start, .park, .wake,
    .park, .call 2, .answer 2 (.error (.permanent "gone")), .collect 2, .start, .park, .call 1,
    .answer 1 (.error (.transient "down")), .collect 1, .exit, .submit 3 [30]]

theorem afterShutdown_drains :
    ∃ drain events final later,
      Drain.initial.run? (places 0) beforeShutdown = some (drain, events) ∧
        drain.table.closed = true ∧
        drain.run? (places 0) afterShutdown = some (final, later) ∧
        (later.filterMap Event.called?).length = drain.table.states.total Slot.calls ∧
        afterShutdown.countP Action.isWork ≤ drain.work ∧
        final.stage = .exited ∧ final.Drained (events ++ later) := by
  have outcome : ((Drain.initial.run? (places 0) beforeShutdown).map fun before =>
      (before.1.table.closed, before.1.table.states.total Slot.calls,
        (before.1.run? (places 0) afterShutdown).map fun after =>
          ((after.2.filterMap Event.called?).length, after.1.stage))) =
      some (true, 3, some (3, .exited)) := by decide +kernel
  obtain ⟨⟨drain, events⟩, run, found⟩ := Option.map_eq_some_iff.mp outcome
  obtain ⟨closed, rest⟩ := Prod.mk.inj found
  obtain ⟨total, rest⟩ := Prod.mk.inj rest
  obtain ⟨⟨final, later⟩, continued, ends⟩ := Option.map_eq_some_iff.mp rest
  obtain ⟨calls, exited⟩ := Prod.mk.inj ends
  obtain ⟨_, _, work, _, _, drained⟩ := shutdown_drains 0 run closed continued
  exact ⟨drain, events, final, later, run, closed, continued, calls.trans total.symm, work, exited,
    (drained exited).1⟩

end Drain
end Dispatch
end Intake
