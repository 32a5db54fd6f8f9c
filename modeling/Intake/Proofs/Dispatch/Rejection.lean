import Intake.Dispatch.Trial
import Intake.Proofs.Dispatch.Batches
import Intake.Proofs.Dispatch.Turns

/-!
# Rejected for good and alone

A flush is rejected just when a call of it is answered with a final failure.  From the moment its
end is taken note of, nothing happens to its key any more but that submissions are turned away, so
its last batches stay lost.  No other key notices: it keeps its slot, its flush and its place in
line, and what is persisted of it still follows from its own deeds.
-/

namespace Intake
namespace Dispatch

theorem Standing.Step.of_discarded {Key Mutation : Type} [Mergeable Mutation] {key : Key}
    {mutation : Mutation} {failure : FlushFailure} {behind : Option Mutation}
    {now : List (Event Key Mutation)}
    (taken : Step key (.flushing mutation (.over (.rejected failure)) behind) .idle now) :
    now = [.rejected key failure] := by
  cases taken with
  | discard => rfl

namespace Drain

variable {Key Mutation : Type} [DecidableEq Key] [Mergeable Mutation] {limit : Nat}
  {drain next : Drain Key Mutation} {action : Action Key Mutation}
  {now : List (Event Key Mutation)}

/-! ## Final failures -/

/-- A call of a key is answered with a failure that is final. -/
def Refusal (key : Key) (failure : FlushFailure) (action : Action Key Mutation) : Prop :=
  action = .answer key (.error failure) ∧ failure.isRetryable = false

omit [Mergeable Mutation] in
/-- Where the flush of one key goes on, every flush does, and is refused if a call of it is. -/
private theorem flush?_moved {key : Key} {flush moved before : Flush Key Mutation}
    (held : drain.flush? key = some flush) (moving : drain.flush? moved.key = some before)
    (kept : moved.mutation = before.mutation)
    (own : ∀ failure, moved.phase = .over (.rejected failure) ↔
      before.phase = .over (.rejected failure) ∨ Refusal moved.key failure action)
    (alone : ∀ other failure, Refusal other failure action → other = moved.key) :
    ∃ after, (drain.setFlush moved).flush? key = some after ∧ after.mutation = flush.mutation ∧
      ∀ failure, after.phase = .over (.rejected failure) ↔
        flush.phase = .over (.rejected failure) ∨ Refusal key failure action := by
  by_cases same : key = moved.key
  · subst same
    obtain rfl := Option.some.inj (held.symm.trans moving)
    exact ⟨moved, flush?_setFlush_self held, kept, own⟩
  · have silent : ∀ failure, ¬ Refusal key failure action :=
      fun failure refused => same (alone key failure refused)
    exact ⟨flush, (flush?_setFlush_of_ne same).trans held, rfl, by simp [silent]⟩

/-- A flush goes on until its end is taken note of, and is refused if a call of it is. -/
theorem Step.flush?_of_going (taken : Step limit drain action next now) {key : Key}
    {flush : Flush Key Mutation} (held : drain.flush? key = some flush)
    (going : action ≠ .collect key) :
    ∃ after, next.flush? key = some after ∧ after.mutation = flush.mutation ∧
      ∀ failure, after.phase = .over (.rejected failure) ↔
        flush.phase = .over (.rejected failure) ∨ Refusal key failure action := by
  cases taken with
  | start filling place found =>
      refine ⟨flush, ?_, rfl, by simp [Refusal]⟩
      unfold flush? at held ⊢
      simp [List.find?_append, held]
  | call parked moving | succeed parked moving | retry parked moving
  | giveUp parked cancelled moving =>
      exact flush?_moved held moving rfl (by simp [Refusal]) (by simp [Refusal])
  | reject parked moving final =>
      rename_i refused
      have own : ∀ failure, refused = failure → failure.isRetryable = false := by
        rintro _ rfl
        exact final
      refine flush?_moved held moving rfl ?_ (by simp +contextual [Refusal])
      simpa [Refusal] using own
  | backOff parked moving retryable | abandon parked moving retryable =>
      refine flush?_moved held moving rfl ?_ (by simp +contextual [Refusal])
      simp [Refusal, retryable]
  | collect parked ended released =>
      obtain ⟨rfl, rfl⟩ := Prod.ext_iff.mp released
      rename_i other _ _ verdict
      have different : key ≠ other := by
        rintro rfl
        exact going rfl
      exact ⟨flush, (flush?_collect_of_ne drain verdict different).trans held, rfl,
        by simp [Refusal]⟩
  | _ => exact ⟨flush, held, rfl, by simp [Refusal]⟩

/-- Up to its end, a flush is refused just when a call of it is. -/
theorem flush?_of_run {started : Drain Key Mutation} {key : Key} {flush : Flush Key Mutation}
    (held : started.flush? key = some flush)
    (fresh : ∀ failure, flush.phase ≠ .over (.rejected failure))
    {actions : List (Action Key Mutation)} {events : List (Event Key Mutation)}
    (run : started.run? limit actions = some (drain, events)) (going : .collect key ∉ actions) :
    ∃ current, drain.flush? key = some current ∧ current.mutation = flush.mutation ∧
      ∀ failure, current.phase = .over (.rejected failure) ↔
        ∃ action ∈ actions, Refusal key failure action := by
  refine run_induction (motive := fun actions drain _ => .collect key ∉ actions →
    ∃ current, drain.flush? key = some current ∧ current.mutation = flush.mutation ∧
      ∀ failure, current.phase = .over (.rejected failure) ↔
        ∃ action ∈ actions, Refusal key failure action) ?_ ?_ run going
  · exact fun _ => ⟨flush, held, rfl, by simpa using fresh⟩
  · intro actions middle _ action next now _ earlier taken going
    obtain ⟨current, flying, same, refused⟩ :=
      earlier fun member => going (List.mem_append_left _ member)
    have last : action ≠ .collect key := by
      rintro rfl
      exact going (by simp)
    obtain ⟨after, onward, kept, changed⟩ := taken.flush?_of_going flying last
    refine ⟨after, onward, kept.trans same, fun failure => ?_⟩
    rw [changed, refused]
    simp [or_and_right, exists_or]

theorem Step.flush?_of_start {key : Key} {mutation : Mutation} (consistent : drain.Consistent)
    (taken : Step limit drain .start next [.started key mutation]) :
    next.flush? key = some ⟨key, mutation, 0, .due⟩ := by
  cases taken with
  | start filling place found =>
      have waiting := (consistent.ready_of_firstWaiting found).2
      have idle : drain.flush? key = none := by
        rw [flush?_eq_none, consistent.mem_flushes]
        exact fun flushing => Table.not_isWaiting_of_isFlushing flushing ⟨_, waiting⟩
      unfold flush? at idle ⊢
      simp [List.find?_append, idle]

theorem Step.of_collecting {key : Key} (taken : Step limit drain (.collect key) next now) :
    ∃ mutation failures verdict,
      drain.flush? key = some ⟨key, mutation, failures, .over verdict⟩ ∧
        drain.collect key verdict = (next, now) := by
  cases taken with
  | collect parked held released => exact ⟨_, _, _, held, released⟩

omit [Mergeable Mutation] in
private theorem flush?_collect_self (drain : Drain Key Mutation) (key : Key) (verdict : Verdict) :
    (drain.collect key verdict).1.flush? key = none := by
  simp [Drain.collect, flush?]

/-- A key gets a flush only by its start. -/
theorem Step.flush?_of_none (taken : Step limit drain action next now) {key : Key}
    (idle : drain.flush? key = none) :
    next.flush? key = none ∨ ∃ mutation, action = .start ∧ now = [.started key mutation] := by
  cases taken with
  | start filling place found =>
      rename_i other mutation rest
      by_cases same : other = key
      · subst same
        exact .inr ⟨mutation, rfl, rfl⟩
      · left
        unfold flush? at idle ⊢
        simp [List.find?_append, idle, same]
  | call | succeed | reject | backOff | abandon | retry | giveUp =>
      exact .inl (by rw [flush?_setFlush, idle, Option.map_none])
  | collect parked held released =>
      obtain ⟨rfl, rfl⟩ := Prod.ext_iff.mp released
      rename_i other _ _ verdict
      have different : key ≠ other := by
        rintro rfl
        simp [idle] at held
      exact .inl ((flush?_collect_of_ne drain verdict different).trans idle)
  | _ => exact .inl idle

/-- The start of a flush in a run, since when the flush has not ended. -/
structure Launch (limit : Nat) (key : Key) (actions : List (Action Key Mutation))
    (drain : Drain Key Mutation) (events : List (Event Key Mutation)) where
  front : List (Action Key Mutation)
  inner : List (Action Key Mutation)
  mutation : Mutation
  source : Drain Key Mutation
  started : Drain Key Mutation
  past : List (Event Key Mutation)
  during : List (Event Key Mutation)
  before : Drain.initial.run? limit front = some (source, past)
  start : source.step? limit .start = some (started, [.started key mutation])
  between : started.run? limit inner = some (drain, during)
  going : .collect key ∉ inner
  actions_eq : actions = front ++ .start :: inner
  events_eq : events = past ++ .started key mutation :: during

namespace Launch

variable {key : Key} {actions : List (Action Key Mutation)} {events : List (Event Key Mutation)}

theorem run (launch : Launch limit key actions drain events) :
    Drain.initial.run? limit actions = some (drain, events) := by
  have whole := runOf_append.mpr
    ⟨_, _, _, launch.before, runOf_cons.mpr ⟨_, _, _, launch.start, launch.between, rfl⟩, rfl⟩
  rwa [← launch.actions_eq, List.singleton_append, ← launch.events_eq] at whole

/-- A flush goes on with its mutation, and is refused just when a call of it is. -/
theorem current (launch : Launch limit key actions drain events) :
    ∃ flush, drain.flush? key = some flush ∧ flush.mutation = launch.mutation ∧
      ∀ failure, flush.phase = .over (.rejected failure) ↔
        ∃ action ∈ launch.inner, Refusal key failure action := by
  have begun := (Step.of_step? launch.start).flush?_of_start (consistent_of_run launch.before)
  exact flush?_of_run begun (by simp) launch.between launch.going

theorem keep (launch : Launch limit key actions drain events)
    (taken : Step limit drain action next now) (going : action ≠ .collect key) :
    Nonempty (Launch limit key (actions ++ [action]) next (events ++ now)) := by
  obtain ⟨front, inner, mutation, source, started, past, during, before, start, between, fresh, rfl,
    rfl⟩ := launch
  have last := runOf_singleton.mpr taken.step?_eq
  exact ⟨⟨front, inner ++ [action], mutation, source, started, past, during ++ now, before, start,
    runOf_append.mpr ⟨_, _, _, between, last, rfl⟩, by simp [fresh, going.symm], by simp, by simp⟩⟩

end Launch

/-- Every flush in progress was started in the run. -/
theorem exists_launch {actions : List (Action Key Mutation)} {events : List (Event Key Mutation)}
    (run : Drain.initial.run? limit actions = some (drain, events)) {key : Key}
    {flush : Flush Key Mutation} (held : drain.flush? key = some flush) :
    Nonempty (Launch limit key actions drain events) := by
  refine run_induction (motive := fun actions drain events => drain.flush? key ≠ none →
    Nonempty (Launch limit key actions drain events)) ?_ ?_ run (by simp [held])
  · intro flying
    exact absurd rfl flying
  · intro actions drain events action next now before earlier taken flying
    by_cases idle : drain.flush? key = none
    · obtain ⟨mutation, rfl, rfl⟩ := (taken.flush?_of_none idle).resolve_left flying
      exact ⟨⟨actions, [], mutation, drain, next, events, [], before, taken.step?_eq, rfl, by simp,
        rfl, rfl⟩⟩
    · obtain ⟨launch⟩ := earlier idle
      apply launch.keep taken
      rintro rfl
      obtain ⟨_, _, verdict, _, released⟩ := taken.of_collecting
      have gone := flush?_collect_self drain key verdict
      rw [released] at gone
      exact flying gone

/-- Every rejection that is reported came of a final failure in a call of the key. -/
theorem refused_of_run {actions : List (Action Key Mutation)} {events : List (Event Key Mutation)}
    (run : Drain.initial.run? limit actions = some (drain, events)) {key : Key}
    {failure : FlushFailure} (reported : .rejected key failure ∈ events) :
    ∃ action ∈ actions, Refusal key failure action := by
  refine run_induction (motive := fun actions _ events => .rejected key failure ∈ events →
    ∃ action ∈ actions, Refusal key failure action) ?_ ?_ run reported
  · simp
  · intro actions drain events action next now before told taken member
    rcases List.mem_append.mp member with early | late
    · obtain ⟨earlier, among, refusal⟩ := told early
      exact ⟨earlier, List.mem_append_left _ among, refusal⟩
    · cases taken with
      | collect parked held released =>
          obtain ⟨rfl, rfl⟩ := Prod.ext_iff.mp released
          obtain ⟨rfl, rfl⟩ := rejected_mem_collect.mp late
          obtain ⟨launch⟩ := exists_launch before held
          obtain ⟨flush, flying, -, refused⟩ := launch.current
          obtain rfl := Option.some.inj (held.symm.trans flying)
          obtain ⟨earlier, among, refusal⟩ := (refused failure).mp rfl
          refine ⟨earlier, List.mem_append_left _ ?_, refusal⟩
          rw [launch.actions_eq]
          simp [among]
      | _ => simp at late

/-! ## Dropped keys -/

/-- Nothing happens to a dropped key but that submissions are turned away. -/
theorem Consistent.step_of_dropped (consistent : drain.Consistent)
    (taken : Step limit drain action next now) {key : Key} (dropped : key ∈ drain.table.dropped) :
    key ∈ next.table.dropped ∧ ∀ event ∈ history key now,
      ∃ mutation, event = .refused key mutation ∨ event = .ignored key mutation := by
  have still : key ∈ next.table.dropped := (taken.mem_dropped key).mpr (.inl dropped)
  have seen := consistent.standing_step taken key
  rw [standing_of_absent (consistent.dropped_absent key dropped),
    standing_of_absent ((consistent.step taken).dropped_absent key still)] at seen
  refine ⟨still, ?_⟩
  generalize history key now = told at seen
  cases seen with
  | rest => simp
  | refuse | ignore => simp

theorem Consistent.run_of_dropped {final : Drain Key Mutation} (consistent : drain.Consistent)
    {actions : List (Action Key Mutation)} {events : List (Event Key Mutation)}
    (run : drain.run? limit actions = some (final, events)) {key : Key}
    (dropped : key ∈ drain.table.dropped) :
    key ∈ final.table.dropped ∧ ∀ event ∈ history key events,
      ∃ mutation, event = .refused key mutation ∨ event = .ignored key mutation := by
  have kept : final.Consistent ∧ key ∈ final.table.dropped ∧ ∀ event ∈ history key events,
      ∃ mutation, event = .refused key mutation ∨ event = .ignored key mutation := by
    refine run_induction (motive := fun _ final events => final.Consistent ∧
      key ∈ final.table.dropped ∧ ∀ event ∈ history key events,
        ∃ mutation, event = .refused key mutation ∨ event = .ignored key mutation)
      ⟨consistent, dropped, by simp [history]⟩ ?_ run
    rintro _ middle events _ next now _ ⟨consistent, dropped, silent⟩ taken
    obtain ⟨still, more⟩ := consistent.step_of_dropped taken dropped
    refine ⟨consistent.step taken, still, fun event member => ?_⟩
    rw [history_append] at member
    rcases List.mem_append.mp member with earlier | later
    · exact silent event earlier
    · exact more event later
  exact kept.2

/-- A step leaves all keys but one as they are, and the line. -/
structure Spares (key : Key) (drain next : Drain Key Mutation) : Prop where
  slot : ∀ other, other ≠ key → next.table.states.get? other = drain.table.states.get? other
  flight : ∀ other, other ≠ key → next.flush? other = drain.flush? other
  dropped : ∀ other, other ≠ key → (other ∈ next.table.dropped ↔ other ∈ drain.table.dropped)
  line : next.table.ready = drain.table.ready
  closed : next.table.closed = drain.table.closed

omit [Mergeable Mutation] in
theorem Consistent.spares_of_rejected (consistent : drain.Consistent) {key : Key}
    {flush : Flush Key Mutation} (held : drain.flush? key = some flush) (failure : FlushFailure) :
    Spares key drain (drain.collect key (.rejected failure)).1 := by
  obtain ⟨behind, flushing⟩ := consistent.isFlushing_of_flush? held
  have finished := Table.finish_of_flushing flushing (.rejected failure)
  refine ⟨?_, ?_, ?_, ?_, closed_collect ..⟩
  · intro other different
    simp [Drain.collect, finished, KeyMap.get?_erase, Ne.symm different]
  · intro other different
    exact flush?_collect_of_ne drain _ different
  · intro other different
    rw [mem_dropped_collect]
    simp [different]
  · simp [Drain.collect, finished]

end Drain

/-! ## Whole flushes -/

/-- A flush of a key in a run: its start, its end, and what came after. -/
structure Passage {Key : Type} (Mutation : Type) [DecidableEq Key] [Mergeable Mutation]
    (limit : Nat) (key : Key) where
  actionsBefore : List (Action Key Mutation)
  middle : Drain Key Mutation
  eventsBefore : List (Event Key Mutation)
  launch : Drain.Launch limit key actionsBefore middle eventsBefore
  next : Drain Key Mutation
  now : List (Event Key Mutation)
  finish : middle.step? limit (.collect key) = some (next, now)
  back : List (Action Key Mutation)
  final : Drain Key Mutation
  later : List (Event Key Mutation)
  after : next.run? limit back = some (final, later)

namespace Passage

variable {Key Mutation : Type} [DecidableEq Key] [Mergeable Mutation] {limit : Nat} {key : Key}

/-- The actions of the run. -/
def actions (flush : Passage Mutation limit key) : List (Action Key Mutation) :=
  flush.actionsBefore ++ .collect key :: flush.back

/-- The events of the run. -/
def events (flush : Passage Mutation limit key) : List (Event Key Mutation) :=
  flush.eventsBefore ++ (flush.now ++ flush.later)

theorem run (flush : Passage Mutation limit key) :
    Drain.initial.run? limit flush.actions = some (flush.final, flush.events) :=
  runOf_append.mpr
    ⟨_, _, _, flush.launch.run, runOf_cons.mpr ⟨_, _, _, flush.finish, flush.after, rfl⟩, rfl⟩

/-- Where the end of a flush is taken note of in a run, a whole flush ends. -/
theorem exists_of_run {front back : List (Action Key Mutation)}
    {middle next final : Drain Key Mutation} {past now later : List (Event Key Mutation)}
    (run : Drain.initial.run? limit front = some (middle, past))
    (finish : middle.step? limit (.collect key) = some (next, now))
    (after : next.run? limit back = some (final, later)) :
    ∃ flush : Passage Mutation limit key,
      flush.actions = front ++ .collect key :: back ∧ flush.events = past ++ (now ++ later) ∧
        flush.middle = middle ∧ flush.now = now ∧ flush.final = final := by
  obtain ⟨_, _, _, held, _⟩ := (Drain.Step.of_step? finish).of_collecting
  obtain ⟨launch⟩ := Drain.exists_launch run held
  exact ⟨⟨front, middle, past, launch, next, now, finish, back, final, later, after⟩, rfl, rfl, rfl,
    rfl, rfl⟩

/-- The flush was held to its end, with the same mutation, and was refused if a call of it was. -/
theorem held (flush : Passage Mutation limit key) :
    ∃ failures verdict,
      flush.middle.flush? key = some ⟨key, flush.launch.mutation, failures, .over verdict⟩ ∧
        flush.middle.collect key verdict = (flush.next, flush.now) ∧
          ∀ failure, verdict = .rejected failure ↔
            ∃ action ∈ flush.launch.inner, Drain.Refusal key failure action := by
  obtain ⟨current, flying, same, refused⟩ := flush.launch.current
  obtain ⟨mutation, failures, verdict, held, released⟩ :=
    (Drain.Step.of_step? flush.finish).of_collecting
  obtain rfl := Option.some.inj (flying.symm.trans held)
  obtain rfl : mutation = flush.launch.mutation := same
  exact ⟨failures, verdict, held, released, by simpa using refused⟩

theorem held_of_rejected (flush : Passage Mutation limit key) {failure : FlushFailure}
    (rejected : .rejected key failure ∈ flush.now) :
    ∃ failures,
      flush.middle.flush? key =
          some ⟨key, flush.launch.mutation, failures, .over (.rejected failure)⟩ ∧
        flush.middle.collect key (.rejected failure) = (flush.next, flush.now) := by
  obtain ⟨failures, verdict, held, released, -⟩ := flush.held
  have told : .rejected key failure ∈ (flush.middle.collect key verdict).2 := by rwa [released]
  obtain rfl := (Drain.rejected_mem_collect.mp told).2
  exact ⟨failures, held, released⟩

/-- The batches of the key before the end of the flush. -/
def batchesBefore (flush : Passage Mutation limit key) : Batches Mutation :=
  Batches.of (deeds key flush.eventsBefore)

/-- After the flush nothing happens to its key, and what it held is lost. -/
structure Final (flush : Passage Mutation limit key) (failure : FlushFailure) : Prop where
  /-- The key is rejected, and then its submissions are turned away. -/
  silent : ∃ turned,
    history key (flush.now ++ flush.later) = .rejected key failure :: turned ∧
      ∀ event ∈ turned, ∃ mutation, event = .refused key mutation ∨ event = .ignored key mutation
  /-- No submission of the key changes anything. -/
  barred : ∀ mutation, flush.final.submit key mutation =
    (flush.final, [if flush.final.table.closed then .refused key mutation
      else .ignored key mutation])
  /-- The batch that was flushed is lost with the one behind it. -/
  lost : ∃ block, flush.batchesBefore.flying = some block ∧ block.merged = flush.launch.mutation ∧
    Batches.of (deeds key flush.events) =
      ⟨flush.batchesBefore.settled ++
        (block :: flush.batchesBefore.queued.toList).map (⟨·, false⟩), none, none⟩
  /-- Nothing more was persisted. -/
  persisted : (history key flush.events).filterMap Event.persisted? =
    (history key flush.eventsBefore).filterMap Event.persisted?

theorem final_of_rejected (flush : Passage Mutation limit key) {failure : FlushFailure}
    (rejected : .rejected key failure ∈ flush.now) : flush.Final failure := by
  obtain ⟨failures, held, released⟩ := flush.held_of_rejected rejected
  have consistent := Drain.consistent_of_run flush.launch.run
  have taken := Drain.Step.of_step? flush.finish
  have dropped : key ∈ flush.next.table.dropped :=
    (taken.mem_dropped key).mpr (.inr ⟨failure, rejected⟩)
  obtain ⟨still, turned⟩ := (consistent.step taken).run_of_dropped flush.after dropped
  obtain ⟨behind, flushing⟩ := consistent.isFlushing_of_flush? held
  have standing := Drain.standing_of_flushing flushing held
  have discarded : history key flush.now = [.rejected key failure] := by
    have seen := consistent.standing_step taken key
    rw [standing, Drain.standing_of_absent
      ((consistent.step taken).dropped_absent key dropped)] at seen
    exact seen.of_discarded
  have silent : history key (flush.now ++ flush.later) =
      .rejected key failure :: history key flush.later := by
    rw [history_append, discarded]
    rfl
  have whole : history key flush.events =
      history key flush.eventsBefore ++ .rejected key failure :: history key flush.later := by
    rw [events, history_append, silent]
  have quiet : ∀ event ∈ history key flush.later,
      event.deed? = none ∧ event.persisted? = none := by
    intro event member
    obtain ⟨mutation, rfl | rfl⟩ := turned event member <;> exact ⟨rfl, rfl⟩
  refine ⟨⟨_, silent, turned⟩, ?_, ?_, ?_⟩
  · intro mutation
    cases closed : flush.final.table.closed <;>
      simp [Drain.submit, Table.submit, closed, still]
  · have tells := Drain.batches_of_run flush.launch.run key
    have flying := tells.flying
    rw [standing, Standing.flight?_flushing (by simp), eq_comm, Option.map_some,
      Option.map_eq_some_iff] at flying
    obtain ⟨block, flying, merged⟩ := flying
    have none := List.filterMap_eq_nil_iff.mpr fun event member => (quiet event member).1
    have own : deeds key flush.events = deeds key flush.eventsBefore ++ [.lost] := by
      rw [deeds, whole, List.filterMap_append, List.filterMap_cons, none]
      rfl
    have before : flush.batchesBefore.flying = some block := flying
    refine ⟨block, flying, merged, ?_⟩
    rw [own, Batches.of_append, ← batchesBefore]
    simp [Batches.enter, before]
  · have none := List.filterMap_eq_nil_iff.mpr fun event member => (quiet event member).2
    rw [whole, List.filterMap_append, List.filterMap_cons]
    simp [Event.persisted?, none]

end Passage

/-- What is persisted, lost or turned away of a key is its own doing, or that of shutdown. -/
structure Separate {Key Mutation : Type} [DecidableEq Key] [Mergeable Mutation]
    (actions : List (Action Key Mutation)) (drain : Drain Key Mutation)
    (events : List (Event Key Mutation)) : Prop where
  /-- What was persisted of a key, what is being flushed and what waits follow from its deeds. -/
  batches : ∀ key, (Batches.of (deeds key events)).Tells (drain.standing key) (history key events)
  /-- Keys were started in the order in which they began to wait, and the others are in line. -/
  line : events.filterMap Event.queued? = events.filterMap Event.started? ++ drain.table.ready
  rejected : ∀ key failure, .rejected key failure ∈ events →
    ∃ action ∈ actions, Drain.Refusal key failure action
  ignored : ∀ key mutation, .ignored key mutation ∈ events →
    ∃ failure, .rejected key failure ∈ events
  refused : ∀ key mutation, .refused key mutation ∈ events → .cancel ∈ actions
  abandoned : ∀ key failure, .abandoned key failure ∈ events → .cancel ∈ actions

variable {Key Mutation : Type} [DecidableEq Key] [Mergeable Mutation] {limit : Nat}

theorem separate_of_run {actions : List (Action Key Mutation)} {drain : Drain Key Mutation}
    {events : List (Event Key Mutation)}
    (run : Drain.initial.run? limit actions = some (drain, events)) :
    Separate actions drain events where
  batches := Drain.batches_of_run run
  line := (Drain.orderly_of_run run).line
  rejected _ _ := Drain.refused_of_run run
  ignored key := (Drain.rejected_of_run run key).2
  refused key mutation told := by
    by_contra going
    exact (Drain.running_of_run run going).refused key mutation told
  abandoned key failure told := by
    by_contra going
    exact (Drain.running_of_run run going).abandoned key failure told

/-- A flush is rejected just when a call of it is answered with a final failure.  Then its key is
done with for good, and no other key notices. -/
theorem rejection_is_final_and_alone {key : Key} (flush : Passage Mutation limit key) :
    (∀ failure, .rejected key failure ∈ flush.now ↔
        ∃ action ∈ flush.launch.inner, Drain.Refusal key failure action) ∧
      (∀ failure, .rejected key failure ∈ flush.now →
        flush.Final failure ∧ Drain.Spares key flush.middle flush.next) ∧
      Separate flush.actions flush.final flush.events := by
  refine ⟨?_, ?_, separate_of_run flush.run⟩
  · intro failure
    obtain ⟨failures, verdict, held, released, refused⟩ := flush.held
    have told : flush.now = (flush.middle.collect key verdict).2 :=
      (congrArg Prod.snd released).symm
    rw [← refused, told, Drain.rejected_mem_collect]
    simp
  · intro failure rejected
    obtain ⟨failures, held, released⟩ := flush.held_of_rejected rejected
    have spares := (Drain.consistent_of_run flush.launch.run).spares_of_rejected held failure
    rw [released] at spares
    exact ⟨flush.final_of_rejected rejected, spares⟩

/-- A call of one key is refused while a mutation waits behind its flush and another key waits. -/
def beforeRejection : List (Action Nat (List Nat)) :=
  [.submit 1 [10], .submit 2 [20], .start, .park, .call 1, .submit 1 [11],
    .answer 1 (.error (.permanent "gone")), .submit 1 [12]]

/-- The other key is flushed and accepts another mutation, while the first one accepts nothing. -/
def afterRejection : List (Action Nat (List Nat)) :=
  [.submit 1 [13], .start, .park, .call 2, .answer 2 (.ok ()), .collect 2, .submit 2 [21],
    .submit 1 [14]]

theorem beforeRejection_is_final_and_alone :
    ∃ flush : Passage (List Nat) 1 1,
      flush.actions = beforeRejection ++ .collect 1 :: afterRejection ∧
        flush.Final (.permanent "gone") ∧ Drain.Spares 1 flush.middle flush.next ∧
          Separate flush.actions flush.final flush.events := by
  have outcome : ((Drain.initial.run? 1 beforeRejection).bind fun before =>
      (before.1.step? 1 (.collect 1)).bind fun finish =>
        (finish.1.run? 1 afterRejection).map fun _ => finish.2) =
      some [.pending 1, .rejected 1 (.permanent "gone")] := by decide +kernel
  obtain ⟨⟨middle, past⟩, run, rest⟩ := Option.bind_eq_some_iff.mp outcome
  obtain ⟨⟨next, now⟩, finish, rest⟩ := Option.bind_eq_some_iff.mp rest
  obtain ⟨⟨final, later⟩, after, told⟩ := Option.map_eq_some_iff.mp rest
  obtain ⟨flush, actions, -, -, same, -⟩ := Passage.exists_of_run run finish after
  obtain ⟨-, rejected, separate⟩ := rejection_is_final_and_alone flush
  have reported : .rejected 1 (.permanent "gone") ∈ flush.now := by
    rw [same, show now = _ from told]
    simp
  obtain ⟨done, spares⟩ := rejected _ reported
  exact ⟨flush, actions, done, spares, separate⟩

end Dispatch
end Intake
