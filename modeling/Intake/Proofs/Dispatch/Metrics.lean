import Intake.Dispatch.Report
import Intake.Dispatch.Trial
import Intake.Proofs.Dispatch.Workload
import Intake.Proofs.Dispatch.Stages

/-!
# Metrics of a dispatcher

The counters of a dispatcher are raised at several places: where a mutation is submitted, where a
call is answered, where it is repeated, and where the end of a flush is taken note of.  Together
they balance.  What a flush in progress still has to enter is measured by its phase
(`Drain.aloft`), `Entry` says what each step enters, and `Tallied` is what the entries of a whole
run come to.
-/

namespace Intake
namespace Dispatch

/-! ## What is counted -/

namespace Action

variable {Key Mutation : Type}

/-- Whether a flush starts. -/
def isStart : Action Key Mutation → Bool
  | start => true
  | _ => false

/-- Whether a call is made. -/
def isCall : Action Key Mutation → Bool
  | call _ => true
  | _ => false

/-- Whether a mutation is submitted. -/
def isSubmission : Action Key Mutation → Bool
  | submit .. => true
  | _ => false

/-- Whether the loop notices the request to shut down, and closes the table. -/
def isNotice : Action Key Mutation → Bool
  | notice => true
  | _ => false

/-- The actions from the close on. -/
def sinceClose (actions : List (Action Key Mutation)) : List (Action Key Mutation) :=
  actions.dropWhile (!·.isNotice)

/-- An action after the close is the last one since the close. -/
private theorem countP_sinceClose (actions : List (Action Key Mutation))
    (action : Action Key Mutation) :
    (sinceClose (actions ++ [action])).countP isSubmission =
      (sinceClose actions).countP isSubmission +
        if action.isSubmission && actions.any isNotice then 1 else 0 := by
  induction actions with
  | nil => cases action <;> rfl
  | cons first rest ih =>
      cases closes : first.isNotice with
      | true => simp [sinceClose, closes, List.countP_cons, List.countP_append]; omega
      | false => simpa [sinceClose, closes] using ih

end Action

namespace Event

variable {Key Mutation : Type}

/-- Whether a mutation was accepted. -/
def isAcceptance : Event Key Mutation → Bool
  | accepted .. => true
  | _ => false

/-- Whether a mutation was accepted and joined another one. -/
def isJoin : Event Key Mutation → Bool
  | accepted _ _ true => true
  | _ => false

/-- How the call ended that an event tells of. -/
def tally? : Event Key Mutation → Option Tally
  | answered _ _ tally => some tally
  | _ => none

/-- Whether a call is to be repeated. -/
def isRetrying : Event Key Mutation → Bool
  | retrying .. => true
  | _ => false

/-- The reason for which a mutation or a key was dropped. -/
def dropReason? : Event Key Mutation → Option String
  | refused .. => some "closed"
  | rejected .. => some "rejected"
  | abandoned .. => some "abandoned"
  | _ => none

/-- The size of the table that an event tells. -/
def size? : Event Key Mutation → Option Nat
  | pending count => some count
  | _ => none

end Event

section Counts

variable {Key Mutation : Type} (events later : List (Event Key Mutation))

/-- How many calls ended in some way. -/
def answers (tally : Tally) : Nat := events.countP (·.tally? = some tally)

/-- How many mutations or keys were dropped for a reason. -/
def drops (reason : String) : Nat := events.countP (·.dropReason? = some reason)

theorem answers_append (tally : Tally) :
    answers (events ++ later) tally = answers events tally + answers later tally :=
  List.countP_append

theorem drops_append (reason : String) :
    drops (events ++ later) reason = drops events reason + drops later reason :=
  List.countP_append

/-- Every call that was answered ended in one of three ways. -/
theorem countP_answered : events.countP (·.tally?.isSome) =
    answers events .ok + answers events .rejected + answers events .retry := by
  induction events with
  | nil => rfl
  | cons event rest ih =>
      simp only [answers, List.countP_cons] at ih ⊢
      rw [ih]
      rcases event.tally? with _ | _ | _ | _ <;> simp <;> omega

end Counts

/-! ## What the metrics show -/

section Shown

variable {Key Mutation : Type}

/-- The metrics after events of a dispatcher, from none. -/
def metricsOf (dispatcher : String) (events : List (Event Key Mutation)) : Metrics :=
  Metrics.empty.recordAll (events.flatMap (Event.notices dispatcher))

variable (dispatcher : String) (events : List (Event Key Mutation))

private theorem counter_metricsOf {series : Series} {kind : Event Key Mutation → Bool}
    (each : ∀ event : Event Key Mutation,
      (event.notices dispatcher).count (.counted series) = if kind event then 1 else 0) :
    (metricsOf dispatcher events).counter series = events.countP kind := by
  rw [metricsOf, Metrics.counter_recordAll, Notice.count_flatMap each]
  exact Nat.zero_add _

theorem counter_submitted :
    (metricsOf dispatcher events).counter (submittedSeries dispatcher) =
      events.countP Event.isAcceptance := by
  refine counter_metricsOf dispatcher events fun event => ?_
  cases event with
  | accepted key mutation joined =>
      cases joined <;>
        simp [Event.notices, Event.isAcceptance, submittedSeries, mergedSeries, series]
  | _ =>
      simp [Event.notices, Event.isAcceptance, submittedSeries, flushesSeries, retriesSeries,
        droppedSeries, series]

theorem counter_merged :
    (metricsOf dispatcher events).counter (mergedSeries dispatcher) =
      events.countP Event.isJoin := by
  refine counter_metricsOf dispatcher events fun event => ?_
  cases event with
  | accepted key mutation joined =>
      cases joined <;> simp [Event.notices, Event.isJoin, submittedSeries, mergedSeries, series]
  | _ =>
      simp [Event.notices, Event.isJoin, mergedSeries, flushesSeries, retriesSeries,
        droppedSeries, series]

theorem counter_flushes (tally : Tally) :
    (metricsOf dispatcher events).counter (flushesSeries dispatcher tally) =
      answers events tally := by
  refine counter_metricsOf dispatcher events fun event => ?_
  cases event with
  | accepted key mutation joined =>
      cases joined <;>
        simp [Event.notices, Event.tally?, submittedSeries, mergedSeries, flushesSeries, series]
  | answered key mutation other =>
      cases tally <;> cases other <;>
        simp [Event.notices, Event.tally?, flushesSeries, series, Tally.name]
  | _ =>
      simp [Event.notices, Event.tally?, flushesSeries, retriesSeries, droppedSeries, series]

theorem counter_retries :
    (metricsOf dispatcher events).counter (retriesSeries dispatcher) =
      events.countP Event.isRetrying := by
  refine counter_metricsOf dispatcher events fun event => ?_
  cases event with
  | accepted key mutation joined =>
      cases joined <;>
        simp [Event.notices, Event.isRetrying, submittedSeries, mergedSeries, retriesSeries, series]
  | _ =>
      simp [Event.notices, Event.isRetrying, flushesSeries, retriesSeries, droppedSeries, series]

theorem counter_dropped (reason : String) :
    (metricsOf dispatcher events).counter (droppedSeries dispatcher reason) =
      drops events reason := by
  refine counter_metricsOf dispatcher events fun event => ?_
  cases event with
  | accepted key mutation joined =>
      cases joined <;>
        simp [Event.notices, Event.dropReason?, submittedSeries, mergedSeries, droppedSeries,
          series]
  | refused | rejected | abandoned =>
      simp [Event.notices, Event.dropReason?, droppedSeries, series, List.count_cons]
  | _ =>
      simp [Event.notices, Event.dropReason?, flushesSeries, retriesSeries, droppedSeries, series]

/-- A duration is taken of each call that was answered. -/
theorem durationCount_flushTime :
    (metricsOf dispatcher events).durationCount (flushTimeSeries dispatcher) =
      answers events .ok + answers events .rejected + answers events .retry := by
  have each : ∀ event : Event Key Mutation,
      (event.notices dispatcher).count (.timed (flushTimeSeries dispatcher)) =
        if event.tally?.isSome then 1 else 0 := by
    intro event
    cases event with
    | accepted key mutation joined => cases joined <;> simp [Event.notices, Event.tally?]
    | _ => simp [Event.notices, Event.tally?]
  rw [metricsOf, Metrics.durationCount_recordAll, Notice.count_flatMap each, countP_answered]
  exact Nat.zero_add _

/-- The gauge shows the size of the table that was told last. -/
theorem gauge_pending :
    (metricsOf dispatcher events).gauge (pendingSeries dispatcher) =
      (events.filterMap Event.size?).getLast?.map .ofNat := by
  have each : ∀ event : Event Key Mutation,
      (event.notices dispatcher).filterMap (Metrics.level? (pendingSeries dispatcher)) =
        (event.size?.map UInt64.ofNat).toList := by
    intro event
    cases event with
    | accepted key mutation joined =>
        cases joined <;> simp [Event.notices, Event.size?, Metrics.level?]
    | _ => simp [Event.notices, Event.size?, Metrics.level?]
  have levels : (events.flatMap (Event.notices dispatcher)).filterMap
      (Metrics.level? (pendingSeries dispatcher)) =
        (events.filterMap Event.size?).map UInt64.ofNat := by
    induction events with
    | nil => rfl
    | cons event rest ih =>
        rw [List.flatMap_cons, List.filterMap_append, ih, each, List.filterMap_cons]
        cases event.size? <;> rfl
  rw [metricsOf, Metrics.gauge_recordAll, levels, List.getLast?_map]
  exact Option.or_none

end Shown

/-! ## What is entered -/

namespace Phase

/-- Whether the flush has not been entered among those that are over: one that is persisted is, as
soon as its call is answered, and the others are once the loop takes note of their end. -/
def isUnsettled : Phase → Bool
  | .over .persisted => false
  | _ => true

/-- Whether a call is under way. -/
def isCalling : Phase → Bool
  | .calling => true
  | _ => false

/-- Whether the flush is over as its mutation was refused for good. -/
def isRejected : Phase → Bool
  | .over (.rejected _) => true
  | _ => false

/-- Whether the flush is over as it was given up at shutdown. -/
def isAbandoned : Phase → Bool
  | .over (.abandoned _) => true
  | _ => false

end Phase

namespace Drain

variable {Key Mutation : Type}

/-- How many flushes in progress are in a phase of some kind. -/
def aloft (kind : Phase → Bool) (drain : Drain Key Mutation) : Nat :=
  drain.weight (fun _ => 0) fun phase => (kind phase).toNat

variable {drain next : Drain Key Mutation} (kind : Phase → Bool)

private theorem total_zero (states : KeyMap Key (Slot Mutation)) :
    states.total (fun _ => 0) = 0 := by
  simp [KeyMap.total]

theorem aloft_of_flushes_eq_nil (none : drain.flushes = []) : drain.aloft kind = 0 := by
  simp [aloft, weight, total_zero, none]

theorem aloft_of_flushes_eq (same : next.flushes = drain.flushes) :
    next.aloft kind = drain.aloft kind := by
  simp [aloft, weight, total_zero, same]

theorem aloft_start {key : Key} {mutation : Mutation}
    (begun : next.flushes = drain.flushes ++ [⟨key, mutation, 0, .due⟩]) :
    next.aloft kind = drain.aloft kind + (kind .due).toNat := by
  simp [aloft, weight, total_zero, begun]

section Flushes

variable [DecidableEq Key]

theorem aloft_setFlush (consistent : drain.Consistent) (flush : Flush Key Mutation)
    {old : Flush Key Mutation} (held : drain.flush? flush.key = some old) :
    (drain.setFlush flush).aloft kind + (kind old.phase).toNat =
      drain.aloft kind + (kind flush.phase).toNat :=
  weight_setFlush _ _ consistent flush held

theorem aloft_collect (consistent : drain.Consistent) {key : Key} {mutation : Mutation}
    {failures : Nat} {verdict : Verdict}
    (held : drain.flush? key = some ⟨key, mutation, failures, .over verdict⟩) :
    (drain.collect key verdict).1.aloft kind + (kind (.over verdict)).toNat =
      drain.aloft kind := by
  obtain ⟨behind, flushing⟩ := consistent.isFlushing_of_flush? held
  have sum := weight_collect (fun _ => 0) (fun phase => (kind phase).toNat) consistent held flushing
  have nothing : ((verdict.returned behind).elim 0 fun _ => 0) = 0 := by
    cases verdict.returned behind <;> rfl
  rw [nothing] at sum
  exact sum

end Flushes

/-- What a step enters in the books, given how the flush it is about counted before and counts
after. -/
structure Entry (action : Action Key Mutation) (now : List (Event Key Mutation))
    (before after : (Phase → Bool) → Nat) : Prop where
  started : (if action.isStart then 1 else 0) + before Phase.isUnsettled =
    answers now .ok + drops now "rejected" + drops now "abandoned" + after Phase.isUnsettled
  called : (if action.isCall then 1 else 0) + before Phase.isCalling =
    answers now .ok + answers now .rejected + answers now .retry + after Phase.isCalling
  rejected : answers now .rejected + before Phase.isRejected =
    drops now "rejected" + after Phase.isRejected
  retrying : now.countP Event.isRetrying ≤ answers now .retry
  abandoned : answers now .retry + before Phase.isAbandoned ≤
    now.countP Event.isRetrying + drops now "abandoned" + after Phase.isAbandoned

/-- What is reported when the loop takes note of the end of a flush. -/
private def closing (key : Key) (release : Table.Release) (count : Nat) (verdict : Verdict) :
    List (Event Key Mutation) :=
  releaseEvents key release ++ .pending count :: verdictEvents key verdict

/-- The end of a flush is entered when the loop takes note of it. -/
private theorem Entry.collect (key : Key) (release : Table.Release) (count : Nat)
    (verdict : Verdict) :
    Entry (.collect key : Action Key Mutation) (closing key release count verdict)
      (fun kind => (kind (.over verdict)).toNat) fun _ => 0 := by
  cases release <;> cases verdict <;> exact ⟨rfl, rfl, rfl, Nat.le_refl _, Nat.le_refl _⟩

/-- What the entries of a run come to: what was begun is what is entered and what is aloft. -/
structure Tallied (actions : List (Action Key Mutation)) (drain : Drain Key Mutation)
    (events : List (Event Key Mutation)) : Prop where
  started : actions.countP Action.isStart =
    answers events .ok + drops events "rejected" + drops events "abandoned" +
      drain.aloft Phase.isUnsettled
  called : actions.countP Action.isCall =
    answers events .ok + answers events .rejected + answers events .retry +
      drain.aloft Phase.isCalling
  rejected : answers events .rejected = drops events "rejected" + drain.aloft Phase.isRejected
  retrying : events.countP Event.isRetrying ≤ answers events .retry
  abandoned : answers events .retry ≤
    events.countP Event.isRetrying + drops events "abandoned" + drain.aloft Phase.isAbandoned

namespace Tallied

variable {actions : List (Action Key Mutation)} {events now : List (Event Key Mutation)}
  {action : Action Key Mutation}

theorem initial : Tallied [] (Drain.initial : Drain Key Mutation) [] where
  started := by rw [aloft_of_flushes_eq_nil _ rfl]; rfl
  called := by rw [aloft_of_flushes_eq_nil _ rfl]; rfl
  rejected := by rw [aloft_of_flushes_eq_nil _ rfl]; rfl
  retrying := Nat.le_refl _
  abandoned := Nat.zero_le _

/-- The books are kept by a step that enters what it does. -/
private theorem enter (tallied : Tallied actions drain events)
    (before after : (Phase → Bool) → Nat) (entry : Entry action now before after)
    (moved : ∀ kind, next.aloft kind + before kind = drain.aloft kind + after kind) :
    Tallied (actions ++ [action]) next (events ++ now) := by
  have unsettled := moved Phase.isUnsettled
  have calling := moved Phase.isCalling
  have refused := moved Phase.isRejected
  have givenUp := moved Phase.isAbandoned
  obtain ⟨started, called, rejected, retrying, abandoned⟩ := tallied
  obtain ⟨started', called', rejected', retrying', abandoned'⟩ := entry
  constructor <;>
    simp only [answers_append, drops_append, List.countP_append, List.countP_singleton] <;>
    omega

variable [DecidableEq Key] [Mergeable Mutation] {limit : Nat}

/-- Every step keeps the books. -/
theorem step (tallied : Tallied actions drain events) (consistent : drain.Consistent)
    (taken : Step limit drain action next now) :
    Tallied (actions ++ [action]) next (events ++ now) := by
  cases taken with
  | refuse | ignore | enqueue | join | cancel | parkFull | parkIdle | exit | wake | notice | enlist
  | find | miss | leave =>
      -- These leave the flushes alone and tell nothing of them.
      refine tallied.enter (fun _ => 0) (fun _ => 0) ?_ fun kind => aloft_of_flushes_eq kind rfl
      exact ⟨rfl, rfl, rfl, Nat.le_refl _, Nat.le_refl _⟩
  | start =>
      refine tallied.enter (fun _ => 0) _ ?_ fun kind => aloft_start kind rfl
      exact ⟨rfl, rfl, rfl, Nat.le_refl _, Nat.le_refl _⟩
  | call parked held | succeed parked held | reject parked held | backOff parked held
  | retry parked held =>
      refine tallied.enter _ _ ?_ fun kind => aloft_setFlush kind consistent _ held
      exact ⟨rfl, rfl, rfl, Nat.le_refl _, Nat.le_refl _⟩
  | abandon parked held =>
      refine tallied.enter _ _ ?_ fun kind => aloft_setFlush kind consistent _ held
      exact ⟨rfl, rfl, rfl, Nat.zero_le _, Nat.le_refl _⟩
  | giveUp parked cancelled held =>
      refine tallied.enter _ _ ?_ fun kind => aloft_setFlush kind consistent _ held
      exact ⟨rfl, rfl, rfl, Nat.le_refl _, Nat.zero_le _⟩
  | collect parked held released =>
      rename_i key mutation failures verdict
      obtain ⟨rfl, rfl⟩ := Prod.ext_iff.mp released
      refine tallied.enter _ (fun _ => 0) ?_ fun kind => aloft_collect kind consistent held
      exact .collect key _ _ verdict

end Tallied

/-! ## Balance -/

/-- The metrics of a dispatcher when none of its flushes is in progress. -/
structure Balanced (dispatcher : String) (actions : List (Action Key Mutation))
    (metrics : Metrics) : Prop where
  /-- A duration was taken of each call. -/
  timed : metrics.durationCount (flushTimeSeries dispatcher) = actions.countP Action.isCall
  /-- Each call is counted by how it ended. -/
  called : actions.countP Action.isCall =
    metrics.counter (flushesSeries dispatcher .ok) +
      metrics.counter (flushesSeries dispatcher .rejected) +
      metrics.counter (flushesSeries dispatcher .retry)
  rejected : metrics.counter (flushesSeries dispatcher .rejected) =
    metrics.counter (droppedSeries dispatcher "rejected")
  /-- Each flush was persisted, or its key was dropped. -/
  started : actions.countP Action.isStart =
    metrics.counter (flushesSeries dispatcher .ok) +
      metrics.counter (droppedSeries dispatcher "rejected") +
      metrics.counter (droppedSeries dispatcher "abandoned")
  /-- A call is repeated only after it failed for now, and if it is not, its key was dropped. -/
  retried : metrics.counter (retriesSeries dispatcher) ≤
      metrics.counter (flushesSeries dispatcher .retry) ∧
    metrics.counter (flushesSeries dispatcher .retry) ≤
      metrics.counter (retriesSeries dispatcher) +
        metrics.counter (droppedSeries dispatcher "abandoned")

theorem Tallied.balanced {actions : List (Action Key Mutation)}
    {events : List (Event Key Mutation)} (tallied : Tallied actions drain events)
    (none : drain.flushes = []) (dispatcher : String) :
    Balanced dispatcher actions (metricsOf dispatcher events) := by
  obtain ⟨started, called, rejected, retrying, abandoned⟩ := tallied
  simp only [aloft_of_flushes_eq_nil _ none] at started called rejected abandoned
  constructor <;>
    simp only [durationCount_flushTime, counter_flushes, counter_dropped, counter_retries] <;>
    omega

section Runs

variable [DecidableEq Key] [Mergeable Mutation] {limit : Nat}
  {actions : List (Action Key Mutation)} {events now : List (Event Key Mutation)}
  {action : Action Key Mutation}

/-- What was begun is what is entered and what is aloft, in every reachable state. -/
theorem tallied_of_run (run : Drain.initial.run? limit actions = some (drain, events)) :
    Tallied actions drain events :=
  run_induction (motive := Tallied) .initial
    (fun _ _ _ _ _ _ front tallied taken => tallied.step (consistent_of_run front) taken) run

/-! ## The size of the table -/

omit [DecidableEq Key] [Mergeable Mutation] in
private theorem size_eq_total (states : KeyMap Key (Slot Mutation)) :
    states.size = states.total fun _ => 1 := by
  simp [KeyMap.size, KeyMap.total]

omit [Mergeable Mutation] in
/-- A key that has an entry keeps its place when the entry changes. -/
private theorem size_insert {states : KeyMap Key (Slot Mutation)} {key : Key}
    {old : Slot Mutation} (held : states.get? key = some old) (slot : Slot Mutation) :
    (states.insert key slot).size = states.size := by
  have sum := KeyMap.total_insert (fun _ => 1) states key slot
  rw [held, Option.map_some, Option.getD_some] at sum
  simp only [size_eq_total]
  omega

/-- The size that was told last, or none if none was told. -/
def told (events : List (Event Key Mutation)) : Nat :=
  (events.filterMap Event.size?).getLast?.getD 0

omit [DecidableEq Key] [Mergeable Mutation] in
private theorem told_append (events now : List (Event Key Mutation)) :
    told (events ++ now) = (now.filterMap Event.size?).getLast?.getD (told events) := by
  rw [told, told, List.filterMap_append, List.getLast?_append]
  cases (now.filterMap Event.size?).getLast? <;> rfl

/-- Every step that changes the size of the table tells it. -/
private theorem told_step (same : told events = drain.table.size)
    (taken : Step limit drain action next now) : told (events ++ now) = next.table.size := by
  rw [told_append, same]
  cases taken with
  | join opened welcome held => exact (size_insert held _).symm
  | start filling place found =>
      exact (size_insert (Table.firstWaiting_eq_some found).1 _).symm
  | collect parked held released =>
      rename_i key mutation failures verdict
      obtain ⟨rfl, rfl⟩ := Prod.ext_iff.mp released
      have last : ∀ release count,
          ((closing key release count verdict : List (Event Key Mutation)).filterMap
            Event.size?).getLast? = some count := by
        intro release count
        cases release <;> cases verdict <;> rfl
      exact congrArg (Option.getD · _) (last _ _)
  | _ => rfl

theorem told_of_run (run : Drain.initial.run? limit actions = some (drain, events)) :
    told events = drain.table.size :=
  run_induction (motive := fun _ drain events => told events = drain.table.size) rfl
    (fun _ _ _ _ _ _ _ same taken => told_step same taken) run

/-! ## Keys that begin to wait -/

/-- Whether a step submits a mutation that makes an idle key wait. -/
def rouses (drain : Drain Key Mutation) (action : Action Key Mutation)
    (next : Drain Key Mutation) : Bool :=
  match action with
  | .submit key _ =>
      match drain.table.states.get? key, next.table.states.get? key with
      | none, some (.waiting _) => true
      | _, _ => false
  | _ => false

/-- How often a submission makes an idle key wait along actions. -/
def rousals (limit : Nat) (drain : Drain Key Mutation) : List (Action Key Mutation) → Nat
  | [] => 0
  | action :: rest =>
      match drain.step? limit action with
      | none => 0
      | some (next, _) => (if drain.rouses action next then 1 else 0) + next.rousals limit rest

omit [Mergeable Mutation] in
private theorem rouses_self (drain : Drain Key Mutation) (action : Action Key Mutation) :
    drain.rouses action drain = false := by
  cases action with
  | submit key mutation => cases held : drain.table.states.get? key <;> simp [rouses, held]
  | _ => rfl

/-- A mutation is accepted if it joins another one or makes its key wait. -/
private theorem accepted_step (taken : Step limit drain action next now) :
    now.countP Event.isAcceptance =
      now.countP Event.isJoin + if drain.rouses action next then 1 else 0 := by
  cases taken with
  | enqueue opened welcome idle grown =>
      subst grown
      rw [if_pos]
      · rfl
      · simp [rouses, idle]
  | join opened welcome held => simp [Event.isAcceptance, Event.isJoin, rouses, held]
  | refuse | ignore =>
      rw [rouses_self]
      rfl
  | collect parked held released =>
      rename_i key mutation failures verdict
      obtain ⟨rfl, rfl⟩ := Prod.ext_iff.mp released
      have none : ∀ release count,
          (closing key release count verdict : List (Event Key Mutation)).countP
              Event.isAcceptance =
            (closing key release count verdict : List (Event Key Mutation)).countP
              Event.isJoin := by
        intro release count
        cases release <;> cases verdict <;> rfl
      exact none _ _
  | _ => rfl

/-- As many mutations are accepted as join others or make their keys wait. -/
theorem countP_isAcceptance (run : drain.run? limit actions = some (next, events)) :
    events.countP Event.isAcceptance =
      events.countP Event.isJoin + drain.rousals limit actions := by
  induction actions generalizing drain events with
  | nil =>
      obtain ⟨rfl, rfl⟩ : drain = next ∧ [] = events := by simpa [run?, runOf] using run
      rfl
  | cons action rest ih =>
      obtain ⟨middle, now, later, taken, onward, rfl⟩ := runOf_cons.mp run
      have first := accepted_step (.of_step? taken)
      rw [List.countP_append, List.countP_append, first, ih onward, rousals, taken]
      dsimp only
      omega

/-! ## Mutations after the close -/

/-- The table is closed from the notice on, and what is refused is what is submitted since. -/
structure Shut (actions : List (Action Key Mutation)) (drain : Drain Key Mutation)
    (events : List (Event Key Mutation)) : Prop where
  closed : drain.table.closed = actions.any Action.isNotice
  refused : drops events "closed" = (Action.sinceClose actions).countP Action.isSubmission

namespace Shut

/-- Every step but the notice itself keeps it. -/
theorem step (shut : Shut actions drain events) (taken : Step limit drain action next now) :
    Shut (actions ++ [action]) next (events ++ now) := by
  obtain ⟨closed, refused⟩ := shut
  constructor
  · rw [List.any_append, ← closed]
    cases taken with
    | notice => simp [Table.close, Action.isNotice]
    | collect parked held released =>
        obtain ⟨rfl, rfl⟩ := Prod.ext_iff.mp released
        simp [closed_collect, Action.isNotice]
    | enqueue opened welcome idle grown => simp [grown, Action.isNotice]
    | _ => simp [Action.isNotice]
  · rw [drops_append, refused, Action.countP_sinceClose, ← closed]
    congr 1
    cases taken with
    | refuse shut =>
        rw [shut]
        rfl
    | ignore opened | enqueue opened | join opened =>
        rw [opened]
        rfl
    | collect parked held released =>
        rename_i key mutation failures verdict
        obtain ⟨rfl, rfl⟩ := Prod.ext_iff.mp released
        have none : ∀ release count,
            drops (closing key release count verdict : List (Event Key Mutation)) "closed" =
              0 := by
          intro release count
          cases release <;> cases verdict <;> rfl
        exact none _ _
    | _ => rfl

end Shut

theorem shut_of_run (run : Drain.initial.run? limit actions = some (drain, events)) :
    Shut actions drain events :=
  run_induction (motive := Shut) ⟨rfl, rfl⟩ (fun _ _ _ _ _ _ _ shut taken => shut.step taken) run

/-! ## Every run -/

/-- After every run the gauge of pending keys shows the size of the table once it was set, every
mutation that was submitted joined another one or made an idle key wait, and what was dropped at the
close is what was submitted since.  When no flush is in progress the counters of calls, retries and
dropped keys balance as well. -/
theorem metrics_balance (configured : Nat) (dispatcher : String)
    (run : Drain.initial.run? (places configured) actions = some (drain, events)) :
    (∀ shown, (metricsOf dispatcher events).gauge (pendingSeries dispatcher) = some shown →
      shown = .ofNat drain.table.size ∧
        (drain.table.size < UInt64.size → shown.toNat = drain.table.size)) ∧
    (metricsOf dispatcher events).counter (submittedSeries dispatcher) =
      (metricsOf dispatcher events).counter (mergedSeries dispatcher) +
        Drain.initial.rousals (places configured) actions ∧
    (metricsOf dispatcher events).counter (droppedSeries dispatcher "closed") =
      (Action.sinceClose actions).countP Action.isSubmission ∧
    (drain.flushes = [] → Balanced dispatcher actions (metricsOf dispatcher events)) := by
  refine ⟨fun shown set => ?_, ?_, ?_, fun none => (tallied_of_run run).balanced none dispatcher⟩
  · rw [gauge_pending] at set
    obtain ⟨count, last, rfl⟩ := Option.map_eq_some_iff.mp set
    have size := told_of_run run
    rw [told, last, Option.getD_some] at size
    subst size
    exact ⟨rfl, fun fits => UInt64.toNat_ofNat_of_lt fits⟩
  · rw [counter_submitted, counter_merged, countP_isAcceptance run]
  · rw [counter_dropped, (shut_of_run run).refused]

end Runs

/-- Mutations of three keys, of which one is persisted, one is rejected, and one is abandoned after
it was tried twice, and a mutation after the close. -/
def threeOutcomes : List (Action Nat (List Nat)) :=
  [.submit 1 [10], .submit 1 [11], .submit 2 [20], .submit 3 [30], .start, .start, .start, .park,
    .call 1, .answer 1 (.ok ()), .call 2, .answer 2 (.error (.permanent "refused")),
    .call 3, .answer 3 (.error (.transient "down")), .retry 3, .call 3, .cancel,
    .answer 3 (.error (.transient "down")), .collect 1, .park, .collect 2, .park, .notice, .park,
    .submit 4 [40], .collect 3, .exit]

/-- Each of three flushes ends in a way of its own, and the metrics balance. -/
theorem threeOutcomes_balance :
    ∃ drain events, Drain.initial.run? (places 3) threeOutcomes = some (drain, events) ∧
      drain.stage = .exited ∧ Balanced "progress" threeOutcomes (metricsOf "progress" events) ∧
      (metricsOf "progress" events).counter (flushesSeries "progress" .retry) = 2 ∧
      (metricsOf "progress" events).counter (retriesSeries "progress") = 1 ∧
      (metricsOf "progress" events).counter (droppedSeries "progress" "closed") = 1 := by
  have outcome : ((Drain.initial.run? (places 3) threeOutcomes).map fun outcome =>
      (outcome.1.stage, outcome.1.flushes.isEmpty, answers outcome.2 .retry,
        outcome.2.countP Event.isRetrying)) = some (.exited, true, 2, 1) := by decide +kernel
  obtain ⟨⟨drain, events⟩, run, found⟩ := Option.map_eq_some_iff.mp outcome
  obtain ⟨exited, empty, failed, repeated⟩ : drain.stage = .exited ∧ drain.flushes.isEmpty = true ∧
    answers events .retry = 2 ∧ events.countP Event.isRetrying = 1 := by simpa using found
  obtain ⟨-, -, closed, balanced⟩ := metrics_balance 3 "progress" run
  refine ⟨drain, events, run, exited, balanced (List.isEmpty_iff.mp empty), ?_, ?_, closed⟩
  · rw [counter_flushes, failed]
  · rw [counter_retries, repeated]

end Drain

end Dispatch
end Intake
