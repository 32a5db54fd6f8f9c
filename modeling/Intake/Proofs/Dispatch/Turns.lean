import Intake.Dispatch.Trial
import Intake.Proofs.Dispatch.Consistency

/-!
# Turns of the keys

The events of a run tell which keys began to wait, which flushes were started and which calls were
made.  Flushes start in the order in which their keys began to wait, and the calls of one key never
overlap.  `Drain.run_keeps_turns` puts this together with the consistency of the table.
-/

namespace Intake
namespace Dispatch

/-- The key that begins to wait with an event. -/
def Event.queued? {Key Mutation : Type} : Event Key Mutation → Option Key
  | accepted key _ false => some key
  | requeued key => some key
  | _ => none

/-- The key of the flush that begins with an event. -/
def Event.started? {Key Mutation : Type} : Event Key Mutation → Option Key
  | started key _ => some key
  | _ => none

/-- The key of the call that begins with an event. -/
def Event.called? {Key Mutation : Type} : Event Key Mutation → Option Key
  | called key _ => some key
  | _ => none

/-- The key of the call that ends with an event. -/
def Event.answered? {Key Mutation : Type} : Event Key Mutation → Option Key
  | answered key _ _ => some key
  | _ => none

/-- The key whose flush is taken note of by an action. -/
def Action.collected? {Key Mutation : Type} : Action Key Mutation → Option Key
  | collect key => some key
  | _ => none

/-- Whether a call of a flush is under way. -/
def Flush.isCalling {Key Mutation : Type} (flush : Flush Key Mutation) : Bool :=
  match flush.phase with
  | .calling => true
  | _ => false

namespace Drain

variable {Key Mutation : Type} [DecidableEq Key]

/-- How many calls of a key are under way. -/
def callsUnderWay (drain : Drain Key Mutation) (key : Key) : Nat :=
  if (drain.flush? key).any Flush.isCalling then 1 else 0

theorem callsUnderWay_of_flushes {drain next : Drain Key Mutation}
    (flushes : next.flushes = drain.flushes) (key : Key) :
    next.callsUnderWay key = drain.callsUnderWay key := by
  have same : next.flush? key = drain.flush? key := by rw [flush?, flush?, flushes]
  rw [callsUnderWay, callsUnderWay, same]

theorem callsUnderWay_setFlush {drain : Drain Key Mutation} {flush old : Flush Key Mutation}
    (held : drain.flush? flush.key = some old) (key : Key) :
    (drain.setFlush flush).callsUnderWay key =
      if flush.key = key then (if flush.isCalling then 1 else 0) else drain.callsUnderWay key := by
  unfold callsUnderWay
  by_cases same : flush.key = key
  · subst same
    simp [flush?_setFlush_self held]
  · simp [flush?_setFlush_of_ne (Ne.symm same), same]

/-- What the actions and events so far have to do with the state. -/
structure Orderly (actions : List (Action Key Mutation)) (drain : Drain Key Mutation)
    (events : List (Event Key Mutation)) : Prop where
  /-- Of the keys that began to wait the first ones were started, and the rest still wait. -/
  line :
    events.filterMap Event.queued? = events.filterMap Event.started? ++ drain.table.ready
  /-- Of the flushes that were started some were collected, and the rest are in progress. -/
  flights :
    (events.filterMap Event.started?).Perm
      (actions.filterMap Action.collected? ++ drain.flushes.map Flush.key)
  /-- Of the calls of a key all were answered but one that may be under way. -/
  calls : ∀ key,
    (events.filterMap Event.called?).count key =
      (events.filterMap Event.answered?).count key + drain.callsUnderWay key
  /-- No flush ended for a key that was not being flushed. -/
  expected : ∀ key, .stray key ∉ events

namespace Orderly

variable {actions : List (Action Key Mutation)} {drain next : Drain Key Mutation}
  {events now : List (Event Key Mutation)} {action : Action Key Mutation}

theorem initial : Orderly [] (Drain.initial : Drain Key Mutation) [] where
  line := rfl
  flights := .nil
  calls := by simp [Drain.initial, callsUnderWay, flush?]
  expected := by simp

/-- Steps that neither change the line nor begin or end a flush. -/
private theorem frame (orderly : Orderly actions drain events) (next : Drain Key Mutation)
    (ready : next.table.ready = drain.table.ready)
    (keys : next.flushes.map Flush.key = drain.flushes.map Flush.key)
    (action_quiet : action.collected? = none)
    (events_quiet : ∀ event ∈ now,
      event.queued? = none ∧ event.started? = none ∧ ∀ key, event ≠ .stray key)
    (balance : ∀ key,
      (now.filterMap Event.called?).count key + drain.callsUnderWay key =
        (now.filterMap Event.answered?).count key + next.callsUnderWay key) :
    Orderly (actions ++ [action]) next (events ++ now) := by
  have queued : now.filterMap Event.queued? = [] :=
    List.filterMap_eq_nil_iff.mpr fun event member => (events_quiet event member).1
  have started : now.filterMap Event.started? = [] :=
    List.filterMap_eq_nil_iff.mpr fun event member => (events_quiet event member).2.1
  constructor
  · simpa [queued, started, ready] using orderly.line
  · simpa [started, action_quiet, keys] using orderly.flights
  · intro key
    have before := orderly.calls key
    have change := balance key
    rw [List.filterMap_append, List.count_append, List.filterMap_append, List.count_append]
    omega
  · intro key member
    rcases List.mem_append.mp member with earlier | later
    · exact orderly.expected key earlier
    · exact (events_quiet _ later).2.2 key rfl

/-- Steps that leave the line and all flushes alone. -/
private theorem quiet (orderly : Orderly actions drain events) (next : Drain Key Mutation)
    (ready : next.table.ready = drain.table.ready) (flushes : next.flushes = drain.flushes)
    (action_quiet : action.collected? = none)
    (events_quiet : ∀ event ∈ now,
      event.queued? = none ∧ event.started? = none ∧ ∀ key, event ≠ .stray key)
    (called : now.filterMap Event.called? = []) (answered : now.filterMap Event.answered? = []) :
    Orderly (actions ++ [action]) next (events ++ now) := by
  apply orderly.frame next ready (by rw [flushes]) action_quiet events_quiet
  intro key
  rw [called, answered, callsUnderWay_of_flushes flushes]

/-- Steps in which the flush of one key goes on, and its calls are counted. -/
private theorem moved (orderly : Orderly actions drain events) {flush old : Flush Key Mutation}
    (held : drain.flush? flush.key = some old) (action_quiet : action.collected? = none)
    (events_quiet : ∀ event ∈ now,
      event.queued? = none ∧ event.started? = none ∧ ∀ key, event ≠ .stray key)
    (balance : ∀ other,
      (now.filterMap Event.called?).count other +
          (if flush.key = other ∧ old.isCalling then 1 else 0) =
        (now.filterMap Event.answered?).count other +
          if flush.key = other ∧ flush.isCalling then 1 else 0) :
    Orderly (actions ++ [action]) (drain.setFlush flush) (events ++ now) := by
  apply orderly.frame (drain.setFlush _) rfl (keys_setFlush ..) action_quiet events_quiet
  intro other
  have change := balance other
  rw [callsUnderWay_setFlush held]
  by_cases same : flush.key = other
  · subst same
    simpa [callsUnderWay, held] using change
  · simpa [same] using change

private theorem enqueue (orderly : Orderly actions drain events) {key : Key}
    {mutation : Mutation} {table : Table Key Mutation} {permit : Bool}
    (ready : table.ready = drain.table.ready ++ [key]) :
    Orderly (actions ++ [.submit key mutation]) { drain with table, permit }
      (events ++ [.accepted key mutation false, .pending table.size]) := by
  constructor
  · have line := orderly.line
    simp [List.filterMap_cons, Event.queued?, Event.started?, line, ready]
  · simpa [List.filterMap_cons, Event.started?, Action.collected?] using orderly.flights
  · intro other
    have same : ({ drain with table, permit } : Drain Key Mutation).callsUnderWay other =
        drain.callsUnderWay other := rfl
    rw [same]
    simpa [List.filterMap_cons, Event.called?, Event.answered?] using orderly.calls other
  · simpa using orderly.expected

private theorem start (orderly : Orderly actions drain events) {key : Key}
    {mutation : Mutation} {table : Table Key Mutation}
    (idle : key ∉ drain.flushes.map Flush.key)
    (ready : drain.table.ready = key :: table.ready) :
    Orderly (actions ++ [.start])
      { drain with table, flushes := drain.flushes ++ [⟨key, mutation, 0, .due⟩] }
      (events ++ [.started key mutation]) := by
  constructor
  · have line := orderly.line
    simp [List.filterMap_cons, Event.queued?, Event.started?, line, ready]
  · have flights := orderly.flights.append_right [key]
    simpa [List.filterMap_cons, Event.started?, Action.collected?] using flights
  · intro other
    have calls := orderly.calls other
    have same : ({ drain with table, flushes := drain.flushes ++ [⟨key, mutation, 0, .due⟩] } :
        Drain Key Mutation).callsUnderWay other = drain.callsUnderWay other := by
      unfold callsUnderWay flush?
      rw [List.find?_append]
      by_cases this : key = other
      · subst this
        have absent := flush?_eq_none.mpr idle
        unfold flush? at absent
        simp [absent, Flush.isCalling]
      · simp [this]
    rw [same]
    simpa [List.filterMap_cons, Event.called?, Event.answered?] using calls
  · simpa using orderly.expected

/-- Taking note of the end of a flush starts, calls and answers nothing, and the line grows by the
key if that key waits again. -/
private theorem collect_events (consistent : drain.Consistent) {key : Key}
    {flush : Flush Key Mutation} (held : drain.flush? key = some flush) (verdict : Verdict) :
    (drain.collect key verdict).1.table.ready =
        drain.table.ready ++ (drain.collect key verdict).2.filterMap Event.queued? ∧
      (drain.collect key verdict).2.filterMap Event.started? = [] ∧
      (drain.collect key verdict).2.filterMap Event.called? = [] ∧
      (drain.collect key verdict).2.filterMap Event.answered? = [] ∧
      ∀ other, .stray other ∉ (drain.collect key verdict).2 := by
  obtain ⟨slot, flushing⟩ := consistent.isFlushing_of_flush? held
  have finished := Table.finish_of_flushing flushing verdict
  unfold Drain.collect
  rw [finished]
  cases verdict with
  | persisted =>
      cases slot <;>
        simp [releaseEvents, verdictEvents, List.filterMap_cons, Event.queued?, Event.started?,
          Event.called?, Event.answered?]
  | rejected | abandoned =>
      simp [releaseEvents, verdictEvents, List.filterMap_cons, Event.queued?, Event.started?,
        Event.called?, Event.answered?]

private theorem collect (orderly : Orderly actions drain events) (consistent : drain.Consistent)
    {key : Key} {mutation : Mutation} {failures : Nat} {verdict : Verdict}
    (held : drain.flush? key = some ⟨key, mutation, failures, .over verdict⟩) :
    Orderly (actions ++ [.collect key]) (drain.collect key verdict).1
      (events ++ (drain.collect key verdict).2) := by
  obtain ⟨ready, started, called, answered, expected⟩ :=
    collect_events consistent held verdict
  have flushes : (drain.collect key verdict).1.flushes = drain.flushes.filter (·.key ≠ key) := rfl
  constructor
  · rw [ready, List.filterMap_append, List.filterMap_append, started, orderly.line]
    simp
  · have others : (drain.flushes.map Flush.key).Perm
        (key :: (drain.flushes.filter (·.key ≠ key)).map Flush.key) := by
      have erased := List.perm_cons_erase (mem_keys_of_flush? held)
      rw [consistent.flushes_nodup.erase_eq_filter, List.filter_map] at erased
      simpa [Function.comp_def, bne, beq_eq_decide] using erased
    have flights := orderly.flights.trans (others.append_left _)
    rw [flushes, List.filterMap_append, List.filterMap_append, started]
    simpa [Action.collected?] using flights
  · intro other
    rw [List.filterMap_append, List.filterMap_append, called, answered]
    have same : (drain.collect key verdict).1.callsUnderWay other = drain.callsUnderWay other := by
      unfold callsUnderWay
      by_cases this : other = key
      · subst this
        have absent : (drain.collect other verdict).1.flush? other = none := by
          simp [flush?, flushes]
        simp [absent, held, Flush.isCalling]
      · rw [flush?_collect_of_ne drain verdict this]
    simpa [same] using orderly.calls other
  · intro other member
    rcases List.mem_append.mp member with earlier | later
    · exact orderly.expected other earlier
    · exact expected other later

/-- Every step of a consistent dispatcher keeps the order. -/
theorem step [Mergeable Mutation] {limit : Nat} (orderly : Orderly actions drain events)
    (consistent : drain.Consistent) (taken : Step limit drain action next now) :
    Orderly (actions ++ [action]) next (events ++ now) := by
  cases taken with
  | refuse | ignore | join =>
      exact orderly.quiet _ rfl rfl rfl (by simp [Event.queued?, Event.started?]) rfl rfl
  | enqueue opened welcome idle grown =>
      subst grown
      exact orderly.enqueue rfl
  | start filling place found =>
      obtain ⟨line, held⟩ := consistent.ready_of_firstWaiting found
      apply orderly.start _ line
      intro member
      exact Table.not_isWaiting_of_isFlushing ((consistent.mem_flushes _).mp member) ⟨_, held⟩
  | parkIdle filling place idle | exit filling place idle =>
      exact orderly.quiet _ (consistent.ready_eq_nil idle).symm rfl rfl (by simp) rfl rfl
  | call parked held =>
      apply orderly.moved held rfl (by simp [Event.queued?, Event.started?])
      simp [List.filterMap_cons, Event.called?, Event.answered?, Flush.isCalling,
        List.count_singleton]
  | succeed parked held | reject parked held | backOff parked held | abandon parked held =>
      apply orderly.moved held rfl (by simp [Event.queued?, Event.started?])
      simp [List.filterMap_cons, Event.called?, Event.answered?, Flush.isCalling,
        List.count_singleton]
  | retry parked held | giveUp parked cancelled held =>
      exact orderly.moved held rfl (by simp) (by simp [Flush.isCalling])
  | collect parked held released =>
      have collected := orderly.collect consistent held
      rwa [released] at collected
  | cancel | parkFull | wake | notice | enlist | miss | leave =>
      exact orderly.quiet _ rfl rfl rfl (by simp) rfl rfl
  | find => exact orderly.quiet _ rfl rfl rfl (by simp [Event.queued?, Event.started?]) rfl rfl

end Orderly

variable [Mergeable Mutation] {actions : List (Action Key Mutation)} {drain : Drain Key Mutation}
  {events : List (Event Key Mutation)}

theorem orderly_of_run {limit : Nat}
    (run : Drain.initial.run? limit actions = some (drain, events)) :
    Orderly actions drain events :=
  run_induction (motive := Orderly) .initial
    (fun _ _ _ _ _ _ front orderly taken => orderly.step (consistent_of_run front) taken) run

theorem length_flushes_le {limit : Nat}
    (run : Drain.initial.run? limit actions = some (drain, events)) :
    drain.flushes.length ≤ limit := by
  refine run_induction (motive := fun _ drain _ => drain.flushes.length ≤ limit) ?_ ?_ run
  · simp [Drain.initial]
  · intro _ drain _ _ _ _ _ bounded taken
    cases taken with
    | start filling place =>
        rw [List.length_append]
        exact place
    | collect parked held released =>
        rename_i verdict
        have flushes := congrArg (fun outcome => outcome.1.flushes.length) released
        dsimp only at flushes
        rw [← flushes]
        exact Nat.le_trans (List.length_filter_le ..) bounded
    | call | succeed | reject | backOff | abandon | retry | giveUp =>
        rwa [length_setFlush]
    | _ => exact bounded

/-- In every reachable state of a dispatcher the table, the line, the rejected keys and the flushes
belong together, keys were started in the order in which they began to wait, calls of one key never
overlapped, and no more flushes are in progress than there are places. -/
theorem run_keeps_turns (configured : Nat)
    (run : Drain.initial.run? (places configured) actions = some (drain, events)) :
    drain.Consistent ∧ Orderly actions drain events ∧
      drain.flushes.length ≤ max 1 configured :=
  ⟨consistent_of_run run, orderly_of_run run, length_flushes_le run⟩

/-- Two keys with one place: the key that waits again goes behind the other one, which is then
rejected. -/
def twoKeys : List (Action Nat (List Nat)) :=
  [.submit 1 [10], .submit 2 [20], .start, .submit 1 [11], .park, .call 1, .answer 1 (.ok ()),
    .collect 1, .start, .park, .call 2, .answer 2 (.error (.permanent "gone")), .collect 2,
    .submit 2 [21], .start, .cancel, .park, .notice, .park]

theorem twoKeys_keeps_turns :
    ∃ drain events, Drain.initial.run? (places 0) twoKeys = some (drain, events) ∧
      drain.Consistent ∧ Orderly twoKeys drain events ∧ drain.flushes.length ≤ max 1 0 := by
  have possible : (Drain.initial.run? (places 0) twoKeys).isSome = true := by decide +kernel
  obtain ⟨⟨drain, events⟩, run⟩ := Option.isSome_iff_exists.mp possible
  exact ⟨drain, events, run, run_keeps_turns 0 run⟩

end Drain
end Dispatch
end Intake
