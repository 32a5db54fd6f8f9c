import Intake.Proofs.Dispatch.Consistency

/-!
# One key among many

What a dispatcher does for a key depends on nothing but the standing of that key: whether it is
idle, waits, or is being flushed, with which mutations.  `Standing.Step` lists the steps of a single
key with their events.  Every step of a consistent dispatcher is such a step of every key, most
often the one that changes nothing, so a property of one key is carried by `standing_induction`.
-/

namespace Intake
namespace Dispatch

/-- The key an event is about. -/
def Event.key? {Key Mutation : Type} : Event Key Mutation → Option Key
  | accepted key _ _ | refused key _ | ignored key _ | started key _ | requeued key
  | called key _ | answered key _ _ | retrying key _ | rejected key _ | abandoned key _
  | stray key => some key
  | pending _ | returned _ => none

/-- The mutation that is submitted for a key by an action. -/
def Action.offer? {Key Mutation : Type} [DecidableEq Key] (key : Key) :
    Action Key Mutation → Option Mutation
  | submit other mutation => if other = key then some mutation else none
  | _ => none

/-- The mutation of a submission. -/
def Event.offered? {Key Mutation : Type} : Event Key Mutation → Option Mutation
  | accepted _ mutation _ | refused _ mutation | ignored _ mutation => some mutation
  | _ => none

/-- The part of a history that is about one key. -/
def history {Key Mutation : Type} [DecidableEq Key] (key : Key)
    (events : List (Event Key Mutation)) : List (Event Key Mutation) :=
  events.filter (·.key? = some key)

theorem history_append {Key Mutation : Type} [DecidableEq Key] (key : Key)
    (earlier later : List (Event Key Mutation)) :
    history key (earlier ++ later) = history key earlier ++ history key later :=
  List.filter_append ..

theorem mem_history {Key Mutation : Type} [DecidableEq Key] {key : Key}
    {event : Event Key Mutation} {events : List (Event Key Mutation)} :
    event ∈ history key events ↔ event ∈ events ∧ event.key? = some key := by
  simp [history]

/-- Where a key stands. -/
inductive Standing (Mutation : Type) where
  | idle
  | waiting (mutation : Mutation)
  /-- A mutation is being flushed, and another one may wait behind it. -/
  | flushing (mutation : Mutation) (phase : Phase) (next : Option Mutation)

namespace Standing

variable {Key Mutation : Type}

/-- The flush, unless its mutation was persisted. -/
def flight? : Standing Mutation → Option (Mutation × Phase)
  | idle | waiting _ | flushing _ (.over .persisted) _ => none
  | flushing mutation phase _ => some (mutation, phase)

theorem flight?_flushing {mutation : Mutation} {phase : Phase} {next : Option Mutation}
    (aloft : phase ≠ .over .persisted) :
    (flushing mutation phase next).flight? = some (mutation, phase) := by
  unfold flight?
  split <;> simp_all

theorem flight?_ne_persisted {standing : Standing Mutation} {mutation : Mutation} :
    standing.flight? ≠ some (mutation, .over .persisted) := by
  unfold flight?
  split <;> simp_all

/-- The mutation that waits, also behind a flush. -/
def queued? : Standing Mutation → Option Mutation
  | idle => none
  | waiting mutation => some mutation
  | flushing _ _ next => next

/-- The mutation of the call that is under way. -/
def underWay? : Standing Mutation → Option Mutation
  | flushing mutation .calling _ => some mutation
  | _ => none

/-- What waits behind a flush does not change the flush. -/
theorem flight_behind (mutation : Mutation) (phase : Phase) (next other : Option Mutation) :
    (flushing mutation phase next).flight? = (flushing mutation phase other).flight? ∧
      (flushing mutation phase next).underWay? = (flushing mutation phase other).underWay? := by
  match phase with
  | .due | .calling | .backingOff _ | .over .persisted | .over (.rejected _)
  | .over (.abandoned _) => exact ⟨rfl, rfl⟩

/-- What one step does for a key. -/
inductive Step [Mergeable Mutation] (key : Key) :
    Standing Mutation → Standing Mutation → List (Event Key Mutation) → Prop where
  | rest {standing : Standing Mutation} : Step key standing standing []
  | refuse {standing : Standing Mutation} {mutation : Mutation} :
      Step key standing standing [.refused key mutation]
  | ignore {mutation : Mutation} : Step key idle idle [.ignored key mutation]
  | enqueue {mutation : Mutation} :
      Step key idle (waiting mutation) [.accepted key mutation false]
  | join {earlier mutation : Mutation} :
      Step key (waiting earlier) (waiting (Mergeable.merge earlier mutation))
        [.accepted key mutation true]
  | follow {flying mutation : Mutation} {phase : Phase} :
      Step key (flushing flying phase none) (flushing flying phase (some mutation))
        [.accepted key mutation true]
  | followJoin {flying earlier mutation : Mutation} {phase : Phase} :
      Step key (flushing flying phase (some earlier))
        (flushing flying phase (some (Mergeable.merge earlier mutation)))
        [.accepted key mutation true]
  | start {mutation : Mutation} :
      Step key (waiting mutation) (flushing mutation .due none) [.started key mutation]
  | call {mutation : Mutation} {next : Option Mutation} :
      Step key (flushing mutation .due next) (flushing mutation .calling next)
        [.called key mutation]
  | succeed {mutation : Mutation} {next : Option Mutation} :
      Step key (flushing mutation .calling next) (flushing mutation (.over .persisted) next)
        [.answered key mutation .ok]
  | reject {mutation : Mutation} {next : Option Mutation} {failure : FlushFailure} :
      Step key (flushing mutation .calling next)
        (flushing mutation (.over (.rejected failure)) next) [.answered key mutation .rejected]
  | backOff {mutation : Mutation} {next : Option Mutation} {failure : FlushFailure} :
      Step key (flushing mutation .calling next) (flushing mutation (.backingOff failure) next)
        [.answered key mutation .retry, .retrying key failure]
  | abandon {mutation : Mutation} {next : Option Mutation} {failure : FlushFailure} :
      Step key (flushing mutation .calling next)
        (flushing mutation (.over (.abandoned failure)) next) [.answered key mutation .retry]
  | retry {mutation : Mutation} {next : Option Mutation} {failure : FlushFailure} :
      Step key (flushing mutation (.backingOff failure) next) (flushing mutation .due next) []
  | giveUp {mutation : Mutation} {next : Option Mutation} {failure : FlushFailure} :
      Step key (flushing mutation (.backingOff failure) next)
        (flushing mutation (.over (.abandoned failure)) next) []
  | release {mutation : Mutation} : Step key (flushing mutation (.over .persisted) none) idle []
  | requeue {mutation next : Mutation} :
      Step key (flushing mutation (.over .persisted) (some next)) (waiting next) [.requeued key]
  | discard {mutation : Mutation} {next : Option Mutation} {failure : FlushFailure} :
      Step key (flushing mutation (.over (.rejected failure)) next) idle [.rejected key failure]
  | forsake {mutation : Mutation} {next : Option Mutation} {failure : FlushFailure} :
      Step key (flushing mutation (.over (.abandoned failure)) next) idle [.abandoned key failure]

end Standing

namespace Drain

variable {Key Mutation : Type} [DecidableEq Key]

/-- The standing of a key. -/
def standing (drain : Drain Key Mutation) (key : Key) : Standing Mutation :=
  match drain.table.states.get? key, drain.flush? key with
  | some (.waiting mutation), _ => .waiting mutation
  | some (.flushing next), some flush => .flushing flush.mutation flush.phase next
  | _, _ => .idle

@[simp]
theorem standing_initial (key : Key) :
    (Drain.initial : Drain Key Mutation).standing key = .idle := rfl

theorem standing_of_absent {drain : Drain Key Mutation} {key : Key}
    (absent : drain.table.states.get? key = none) : drain.standing key = .idle := by
  simp [standing, absent]

theorem standing_of_waiting {drain : Drain Key Mutation} {key : Key} {mutation : Mutation}
    (held : drain.table.states.get? key = some (.waiting mutation)) :
    drain.standing key = .waiting mutation := by
  simp [standing, held]

theorem standing_of_flushing {drain : Drain Key Mutation} {key : Key} {next : Option Mutation}
    {flush : Flush Key Mutation} (held : drain.table.states.get? key = some (.flushing next))
    (flying : drain.flush? key = some flush) :
    drain.standing key = .flushing flush.mutation flush.phase next := by
  simp [standing, held, flying]

theorem standing_congr {drain next : Drain Key Mutation} {key : Key}
    (states : next.table.states.get? key = drain.table.states.get? key)
    (flushes : next.flush? key = drain.flush? key) : next.standing key = drain.standing key := by
  rw [standing, standing, states, flushes]

theorem Consistent.flush?_of_flushing {drain : Drain Key Mutation} (consistent : drain.Consistent)
    {key : Key} {next : Option Mutation}
    (held : drain.table.states.get? key = some (.flushing next)) :
    ∃ flush, drain.flush? key = some flush := by
  have member := (consistent.mem_flushes key).mpr ⟨next, held⟩
  cases flying : drain.flush? key with
  | none => exact absurd member (flush?_eq_none.mp flying)
  | some flush => exact ⟨flush, rfl⟩

/-! ## Steps of one key -/

/-- What is reported when the end of a flush is taken note of. -/
theorem mem_collect {drain : Drain Key Mutation} {key : Key} {verdict : Verdict}
    {event : Event Key Mutation} (member : event ∈ (drain.collect key verdict).2) :
    event = .requeued key ∨ event = .stray key ∨ (∃ count, event = .pending count) ∨
      (∃ failure, verdict = .rejected failure ∧ event = .rejected key failure) ∨
        ∃ failure, verdict = .abandoned failure ∧ event = .abandoned key failure := by
  unfold Drain.collect at member
  rcases List.mem_append.mp member with released | rest
  · unfold releaseEvents at released
    split at released <;> simp at released <;> simp [released]
  · rcases List.mem_cons.mp rest with rfl | judged
    · simp
    · cases verdict <;> simp [verdictEvents] at judged <;> simp [judged]

theorem closed_collect (drain : Drain Key Mutation) (key : Key) (verdict : Verdict) :
    (drain.collect key verdict).1.table.closed = drain.table.closed := by
  unfold Drain.collect Table.finish
  dsimp only
  split <;> rfl

theorem mem_dropped_collect {drain : Drain Key Mutation} {key other : Key} {verdict : Verdict} :
    other ∈ (drain.collect key verdict).1.table.dropped ↔
      (other = key ∧ ∃ failure, verdict = .rejected failure) ∨ other ∈ drain.table.dropped := by
  unfold Drain.collect Table.finish
  cases verdict with
  | persisted =>
      dsimp only
      split <;> simp_all
  | rejected | abandoned => simp

theorem rejected_mem_collect {drain : Drain Key Mutation} {key other : Key} {verdict : Verdict}
    {failure : FlushFailure} :
    .rejected other failure ∈ (drain.collect key verdict).2 ↔
      other = key ∧ verdict = .rejected failure := by
  constructor
  · intro member
    have given := mem_collect member
    simpa [eq_comm, and_comm] using given
  · rintro ⟨rfl, rfl⟩
    simp [Drain.collect, verdictEvents]

section Steps

variable [Mergeable Mutation] {limit : Nat} {drain next : Drain Key Mutation}
  {action : Action Key Mutation} {now : List (Event Key Mutation)}

/-- A step that changes one key at most is a step of every key. -/
private theorem step_of_one (key : Key)
    (others : ∀ other, other ≠ key → next.standing other = drain.standing other)
    (own : ∀ event ∈ now, ∀ other, event.key? = some other → other = key)
    (here : Standing.Step key (drain.standing key) (next.standing key) (history key now))
    (other : Key) :
    Standing.Step other (drain.standing other) (next.standing other) (history other now) := by
  by_cases same : other = key
  · subst same
    exact here
  · have silent : history other now = [] := by
      apply List.filter_eq_nil_iff.mpr
      intro event member
      simp only [decide_eq_true_eq]
      intro about
      exact same (own event member other about)
    rw [others other same, silent]
    exact .rest

/-- A step that changes no entry and no flush changes no key. -/
private theorem step_of_none (states : next.table.states = drain.table.states)
    (flushes : next.flushes = drain.flushes) (silent : ∀ event ∈ now, event.key? = none)
    (key : Key) :
    Standing.Step key (drain.standing key) (next.standing key) (history key now) := by
  have same : next.standing key = drain.standing key := by
    apply standing_congr
    · rw [states]
    · rw [flush?, flush?, flushes]
  have none : history key now = [] := by
    apply List.filter_eq_nil_iff.mpr
    intro event member
    simp [silent event member]
  rw [same, none]
  exact .rest

/-- A step in which the flush of a key goes on. -/
private theorem step_of_flush (consistent : drain.Consistent) {key : Key} {mutation : Mutation}
    {failures later : Nat} {phase after : Phase}
    (held : drain.flush? key = some ⟨key, mutation, failures, phase⟩)
    (own : ∀ event ∈ now, event.key? = some key)
    (here : ∀ behind, Standing.Step key (.flushing mutation phase behind)
      (.flushing mutation after behind) now) (other : Key) :
    Standing.Step other (drain.standing other)
      ((drain.setFlush ⟨key, mutation, later, after⟩).standing other) (history other now) := by
  have all : history key now = now :=
    List.filter_eq_self.mpr fun event member => by simp [own event member]
  obtain ⟨behind, flushing⟩ := consistent.isFlushing_of_flush? held
  have before := standing_of_flushing flushing held
  have flying : (drain.setFlush ⟨key, mutation, later, after⟩).flush? key =
      some ⟨key, mutation, later, after⟩ := flush?_setFlush_self held
  have afterwards : (drain.setFlush ⟨key, mutation, later, after⟩).standing key = _ :=
    standing_of_flushing flushing flying
  apply step_of_one key
  · intro other different
    exact standing_congr rfl (flush?_setFlush_of_ne different)
  · intro event member other about
    rw [own event member] at about
    exact (Option.some.inj about).symm
  · rw [before, afterwards, all]
    exact here behind

/-- Taking note of the end of a flush gives its key back, with what waited behind the flush. -/
private theorem step_of_collect (consistent : drain.Consistent) {key : Key} {mutation : Mutation}
    {failures : Nat} {verdict : Verdict}
    (held : drain.flush? key = some ⟨key, mutation, failures, .over verdict⟩) (other : Key) :
    Standing.Step other (drain.standing other) ((drain.collect key verdict).1.standing other)
      (history other (drain.collect key verdict).2) := by
  obtain ⟨behind, flushing⟩ := consistent.isFlushing_of_flush? held
  have finished := Table.finish_of_flushing flushing verdict
  have before := standing_of_flushing flushing held
  apply step_of_one key
  · intro other different
    apply standing_congr _ (flush?_collect_of_ne drain verdict different)
    unfold Drain.collect
    rw [finished]
    cases verdict with
    | persisted =>
        cases behind with
        | some next => simp [KeyMap.get?_insert, KeyMap.get?_erase, Ne.symm different]
        | none => simp [KeyMap.get?_erase, Ne.symm different]
    | rejected | abandoned => simp [KeyMap.get?_erase, Ne.symm different]
  · intro event member other about
    rcases mem_collect member with
      rfl | rfl | ⟨count, rfl⟩ | ⟨failure, _, rfl⟩ | ⟨failure, _, rfl⟩ <;>
      simp [Event.key?] at about <;> exact about.symm
  · rw [before]
    unfold Drain.collect
    rw [finished]
    cases verdict with
    | persisted =>
        cases behind with
        | some next =>
            rw [standing_of_waiting (KeyMap.get?_insert_self ..)]
            simpa [releaseEvents, verdictEvents, history, Event.key?] using Standing.Step.requeue
        | none =>
            rw [standing_of_absent (KeyMap.get?_erase_self ..)]
            simpa [releaseEvents, verdictEvents, history, Event.key?] using Standing.Step.release
    | rejected failure =>
        rw [standing_of_absent (KeyMap.get?_erase_self ..)]
        simpa [releaseEvents, verdictEvents, history, Event.key?] using Standing.Step.discard
    | abandoned failure =>
        rw [standing_of_absent (KeyMap.get?_erase_self ..)]
        simpa [releaseEvents, verdictEvents, history, Event.key?] using Standing.Step.forsake

private theorem step_of_enqueue {key : Key} {mutation : Mutation} {size : Nat}
    (idle : drain.table.states.get? key = none)
    (states : next.table.states = drain.table.states.insert key (.waiting mutation))
    (flushes : next.flushes = drain.flushes) (other : Key) :
    Standing.Step other (drain.standing other) (next.standing other)
      (history other [.accepted key mutation false, .pending size]) := by
  apply step_of_one key
  · intro other different
    apply standing_congr
    · rw [states, KeyMap.get?_insert, if_neg (Ne.symm different)]
    · rw [flush?, flush?, flushes]
  · simp [Event.key?, eq_comm]
  · have held : next.table.states.get? key = some (.waiting mutation) := by
      rw [states, KeyMap.get?_insert_self]
    rw [standing_of_absent idle, standing_of_waiting held]
    simpa [history, Event.key?] using Standing.Step.enqueue

private theorem step_of_join (consistent : drain.Consistent) {key : Key} {mutation : Mutation}
    {slot : Slot Mutation} (held : drain.table.states.get? key = some slot)
    (states : next.table.states = drain.table.states.insert key (slot.absorb mutation))
    (flushes : next.flushes = drain.flushes) (other : Key) :
    Standing.Step other (drain.standing other) (next.standing other)
      (history other [.accepted key mutation true]) := by
  have same : ∀ other, next.flush? other = drain.flush? other := by
    intro other
    rw [flush?, flush?, flushes]
  apply step_of_one key
  · intro other different
    apply standing_congr _ (same other)
    rw [states, KeyMap.get?_insert, if_neg (Ne.symm different)]
  · simp [Event.key?, eq_comm]
  · have own : history key [.accepted key mutation true] = [.accepted key mutation true] := by
      simp [history, Event.key?]
    have absorbed : next.table.states.get? key = some (slot.absorb mutation) := by
      rw [states, KeyMap.get?_insert_self]
    rw [own]
    cases slot with
    | waiting earlier =>
        rw [standing_of_waiting held, standing_of_waiting absorbed]
        exact .join
    | flushing behind =>
        obtain ⟨flush, flying⟩ := consistent.flush?_of_flushing held
        have flying' := (same key).trans flying
        cases behind with
        | none =>
            rw [standing_of_flushing held flying, standing_of_flushing absorbed flying']
            exact .follow
        | some earlier =>
            rw [standing_of_flushing held flying, standing_of_flushing absorbed flying']
            exact .followJoin

private theorem step_of_start (consistent : drain.Consistent) {key : Key} {mutation : Mutation}
    (held : drain.table.states.get? key = some (.waiting mutation))
    (states : next.table.states = drain.table.states.insert key (.flushing none))
    (flushes : next.flushes = drain.flushes ++ [⟨key, mutation, 0, .due⟩]) (other : Key) :
    Standing.Step other (drain.standing other) (next.standing other)
      (history other [.started key mutation]) := by
  have idle : drain.flush? key = none := by
    rw [flush?_eq_none, consistent.mem_flushes]
    rintro ⟨behind, flushing⟩
    simp [held] at flushing
  unfold flush? at idle
  apply step_of_one key
  · intro other different
    apply standing_congr
    · rw [states, KeyMap.get?_insert, if_neg (Ne.symm different)]
    · simp [flush?, flushes, List.find?_append, Ne.symm different]
  · simp [Event.key?, eq_comm]
  · have flying : next.flush? key = some ⟨key, mutation, 0, .due⟩ := by
      simp [flush?, flushes, List.find?_append, idle]
    have flushing : next.table.states.get? key = some (.flushing none) := by
      rw [states, KeyMap.get?_insert_self]
    rw [standing_of_waiting held, standing_of_flushing flushing flying]
    simpa [history, Event.key?] using Standing.Step.start

/-- Every step of a consistent dispatcher is a step of every key. -/
theorem Consistent.standing_step (consistent : drain.Consistent)
    (taken : Step limit drain action next now) (key : Key) :
    Standing.Step key (drain.standing key) (next.standing key) (history key now) := by
  cases taken with
  | refuse closed =>
      rename_i other mutation
      refine step_of_one other (fun _ _ => rfl) (by simp [Event.key?, eq_comm]) ?_ key
      simpa [history, Event.key?] using Standing.Step.refuse
  | ignore opened barred =>
      rename_i other mutation
      refine step_of_one other (fun _ _ => rfl) (by simp [Event.key?, eq_comm]) ?_ key
      rw [standing_of_absent (consistent.dropped_absent other barred)]
      simpa [history, Event.key?] using Standing.Step.ignore
  | enqueue opened welcome idle grown =>
      subst grown
      refine step_of_enqueue idle ?_ ?_ key <;> rfl
  | join opened welcome held => refine step_of_join consistent held ?_ ?_ key <;> rfl
  | start filling place found =>
      have held := (consistent.ready_of_firstWaiting found).2
      refine step_of_start consistent held ?_ ?_ key <;> rfl
  | call parked held =>
      exact step_of_flush consistent held (by simp [Event.key?]) (fun _ => .call) key
  | succeed parked held =>
      exact step_of_flush consistent held (by simp [Event.key?]) (fun _ => .succeed) key
  | reject parked held =>
      exact step_of_flush consistent held (by simp [Event.key?]) (fun _ => .reject) key
  | backOff parked held =>
      exact step_of_flush consistent held (by simp [Event.key?]) (fun _ => .backOff) key
  | abandon parked held =>
      exact step_of_flush consistent held (by simp [Event.key?]) (fun _ => .abandon) key
  | retry parked held =>
      exact step_of_flush consistent held (by simp) (fun _ => .retry) key
  | giveUp parked cancelled held =>
      exact step_of_flush consistent held (by simp) (fun _ => .giveUp) key
  | collect parked held released =>
      have collected := step_of_collect consistent held key
      rwa [released] at collected
  | parkIdle | exit | notice | cancel | parkFull | wake | enlist | miss | leave =>
      exact step_of_none rfl rfl (by simp) key
  | find => exact step_of_none rfl rfl (by simp [Event.key?]) key

/-! ## Runs as seen by one key -/

/-- What holds of an idle key without a history and is kept by every step of that key holds of it
after every run. -/
theorem standing_induction {key : Key}
    {motive : Standing Mutation → List (Event Key Mutation) → Prop} (start : motive .idle [])
    (step : ∀ standing past later now, motive standing past →
      Standing.Step key standing later now → motive later (past ++ now))
    {actions : List (Action Key Mutation)} {events : List (Event Key Mutation)}
    (run : Drain.initial.run? limit actions = some (drain, events)) :
    motive (drain.standing key) (history key events) := by
  refine run_induction (motive := fun _ drain events =>
    motive (drain.standing key) (history key events)) (by simpa [history] using start) ?_ run
  intro actions drain events action next now front held taken
  have changed := step _ _ _ _ held ((consistent_of_run front).standing_step taken key)
  rwa [history_append]

/-- A submission is reported at once. -/
theorem Step.offers (taken : Step limit drain action next now) (key : Key) :
    (history key now).filterMap Event.offered? = (action.offer? key).toList := by
  cases taken with
  | refuse | ignore | enqueue | join =>
      simp only [history, List.filter_cons, List.filter_nil, Event.key?, Action.offer?,
        Option.some.injEq, decide_eq_true_eq, reduceCtorEq, if_false]
      split <;> rfl
  | collect parked held released =>
      apply List.filterMap_eq_nil_iff.mpr
      intro event member
      have reported := List.mem_of_mem_filter member
      obtain ⟨rfl, rfl⟩ := Prod.ext_iff.mp released
      obtain rfl | rfl | ⟨_, rfl⟩ | ⟨_, _, rfl⟩ | ⟨_, _, rfl⟩ := mem_collect reported <;> rfl
  | start | call | succeed | reject | backOff | abandon =>
      apply List.filterMap_eq_nil_iff.mpr
      intro event member
      have reported := List.mem_of_mem_filter member
      simp only [List.mem_cons, List.not_mem_nil, or_false] at reported
      rcases reported with rfl | rfl <;> rfl
  | _ => rfl

/-- Every submission is reported once, in order. -/
theorem offers_of_run {actions : List (Action Key Mutation)} {events : List (Event Key Mutation)}
    (run : Drain.initial.run? limit actions = some (drain, events)) (key : Key) :
    (history key events).filterMap Event.offered? = actions.filterMap (Action.offer? key) := by
  refine run_induction (motive := fun actions _ events =>
    (history key events).filterMap Event.offered? = actions.filterMap (Action.offer? key))
    rfl ?_ run
  intro actions drain events action next now front held taken
  rw [history_append, List.filterMap_append, held, taken.offers, List.filterMap_append]
  cases offered : action.offer? key <;> simp [offered]

/-- A dispatcher that was not asked to shut down takes in mutations and gives none up. -/
structure Running (drain : Drain Key Mutation) (events : List (Event Key Mutation)) : Prop where
  cancelled : drain.cancelled = false
  closed : drain.table.closed = false
  flushes : ∀ flush ∈ drain.flushes, ∀ failure, flush.phase ≠ .over (.abandoned failure)
  refused : ∀ key mutation, .refused key mutation ∉ events
  abandoned : ∀ key failure, .abandoned key failure ∉ events

theorem Running.step {events : List (Event Key Mutation)} (running : drain.Running events)
    (taken : Step limit drain action next now) (going : action ≠ .cancel) :
    next.Running (events ++ now) := by
  obtain ⟨cancelled, closed, flushes, refused, abandoned⟩ := running
  cases taken with
  | cancel => exact absurd rfl going
  | refuse barred => simp [closed] at barred
  | notice parked requested | giveUp parked requested | abandon parked held retryable requested =>
      simp [cancelled] at requested
  | call | succeed | reject | backOff | retry =>
      refine ⟨cancelled, closed, ?_, by simpa using refused, by simpa using abandoned⟩
      intro flush member failure
      simp only [setFlush, List.mem_map] at member
      obtain ⟨other, member, rfl⟩ := member
      split
      · simp
      · exact flushes other member failure
  | start =>
      refine ⟨cancelled, closed, ?_, by simpa using refused, by simpa using abandoned⟩
      intro flush member failure
      rcases List.mem_append.mp member with earlier | new
      · exact flushes flush earlier failure
      · simp [List.mem_singleton.mp new]
  | enqueue opened welcome idle grown =>
      subst grown
      exact ⟨cancelled, closed, flushes, by simpa using refused, by simpa using abandoned⟩
  | collect parked held released =>
      have lasting := flushes _ (mem_of_flush? held)
      obtain ⟨rfl, rfl⟩ := Prod.ext_iff.mp released
      refine ⟨cancelled, (closed_collect ..).trans closed, ?_, ?_, ?_⟩
      · intro flush member
        exact flushes flush (List.mem_of_mem_filter member)
      · intro key mutation member
        rcases List.mem_append.mp member with earlier | later
        · exact refused key mutation earlier
        · simpa using mem_collect later
      · intro key failure member
        rcases List.mem_append.mp member with earlier | later
        · exact abandoned key failure earlier
        · have given := mem_collect later
          simp only [reduceCtorEq, exists_false, false_or, and_false,
            Event.abandoned.injEq] at given
          obtain ⟨cause, rfl, _⟩ := given
          exact lasting cause rfl
  | _ => exact ⟨cancelled, closed, flushes, by simpa using refused, by simpa using abandoned⟩

theorem running_of_run {actions : List (Action Key Mutation)} {events : List (Event Key Mutation)}
    (run : Drain.initial.run? limit actions = some (drain, events)) (going : .cancel ∉ actions) :
    drain.Running events := by
  refine run_induction (motive := fun actions drain events =>
    .cancel ∉ actions → drain.Running events) ?_ ?_ run going
  · intro _
    exact ⟨rfl, rfl, by simp [Drain.initial], by simp, by simp⟩
  · intro actions drain events action next now front held taken going
    have earlier : .cancel ∉ actions := fun member => going (List.mem_append_left _ member)
    exact (held earlier).step taken fun last => going (by simp [last])

/-- A key is dropped when its rejection is reported. -/
theorem Step.mem_dropped (taken : Step limit drain action next now) (key : Key) :
    key ∈ next.table.dropped ↔ key ∈ drain.table.dropped ∨ ∃ failure, .rejected key failure ∈ now := by
  cases taken with
  | collect parked flying released =>
      obtain ⟨rfl, rfl⟩ := Prod.ext_iff.mp released
      rw [mem_dropped_collect]
      simp only [rejected_mem_collect, exists_and_left]
      exact or_comm
  | notice => simp [Table.close]
  | enqueue opened welcome idle grown =>
      subst grown
      simp
  | _ => simp

/-- The rejected keys are those of which a rejection was reported, and mutations of no other key
are ignored. -/
theorem rejected_of_run {actions : List (Action Key Mutation)} {events : List (Event Key Mutation)}
    (run : Drain.initial.run? limit actions = some (drain, events)) (key : Key) :
    (key ∈ drain.table.dropped ↔ ∃ failure, .rejected key failure ∈ events) ∧
      ∀ mutation, .ignored key mutation ∈ events → ∃ failure, .rejected key failure ∈ events := by
  refine run_induction (motive := fun _ drain events =>
    (key ∈ drain.table.dropped ↔ ∃ failure, .rejected key failure ∈ events) ∧
      ∀ mutation, .ignored key mutation ∈ events →
        ∃ failure, .rejected key failure ∈ events) ?_ ?_ run
  · simp [Drain.initial, Table.empty]
  · rintro actions drain events action next now front ⟨dropped, ignored⟩ taken
    constructor
    · rw [taken.mem_dropped, dropped, ← exists_or]
      simp only [List.mem_append]
    · intro mutation member
      rcases List.mem_append.mp member with earlier | later
      · obtain ⟨failure, reported⟩ := ignored mutation earlier
        exact ⟨failure, List.mem_append_left _ reported⟩
      · cases taken with
        | ignore opened barred =>
            obtain ⟨rfl, rfl⟩ : key = _ ∧ mutation = _ := by simpa using later
            obtain ⟨failure, reported⟩ := dropped.mp barred
            exact ⟨failure, List.mem_append_left _ reported⟩
        | collect parked flying released =>
            obtain ⟨rfl, rfl⟩ := Prod.ext_iff.mp released
            simpa using mem_collect later
        | _ => simp at later

end Steps

end Drain
end Dispatch
end Intake
