import Intake.Proofs.Dispatch.Ledger

/-!
# A dispatcher and the world it writes to

The calls of a dispatcher go to a world that others change too.  A call is answered by the world, in
one piece, or it times out before it got there.  Every run of a `Service` is a run of its dispatcher
in which the answers are those of the world, so all that holds of dispatchers holds of it.
-/

namespace Intake
namespace Dispatch

/-- How a world takes a mutation of a key, unless that is a crash. -/
abbrev Writer (Key Mutation World : Type) : Type :=
  World → Key → Mutation → Option (Except FlushFailure Unit × World)

/-- A dispatcher and the world it writes to. -/
structure Service (Key Mutation World : Type) where
  drain : Drain Key Mutation
  world : World

namespace Service

/-- What can happen around a dispatcher. -/
inductive Action (Key Mutation World : Type) where
  /-- The dispatcher takes a step that needs no answer of the world. -/
  | drive (action : Dispatch.Action Key Mutation)
  /-- The call that is under way for a key reaches the world and returns. -/
  | write (key : Key)
  /-- Someone else changes the world. -/
  | change (update : World → World)

/-- Whether a step of the dispatcher needs no answer of the world.  A call that timed out before it
got to the world has no other answer. -/
def isFree {Key Mutation : Type} : Dispatch.Action Key Mutation → Bool
  | .answer _ (.error (.timeout _)) => true
  | .answer _ _ => false
  | _ => true

end Service

namespace Drain

variable {Key Mutation : Type} [DecidableEq Key] [Mergeable Mutation] {limit : Nat}
  {drain next : Drain Key Mutation} {now : List (Event Key Mutation)}

/-- Only an answer tells of success or of a refusal. -/
theorem Step.tally_of_free {action : Dispatch.Action Key Mutation}
    (taken : Step limit drain action next now) (free : Service.isFree action = true)
    (key : Key) (mutation : Mutation) :
    .answered key mutation .ok ∉ now ∧ .answered key mutation .rejected ∉ now := by
  cases taken with
  | succeed => simp [Service.isFree] at free
  | reject parked held final =>
      rename_i failure
      cases failure <;> simp_all [Service.isFree, FlushFailure.isRetryable]
  | collect parked held released =>
      obtain ⟨rfl, rfl⟩ := Prod.ext_iff.mp released
      constructor <;> intro member <;> simpa using mem_collect member
  | _ => simp

/-- What an answer brings about. -/
theorem Step.of_answer {key : Key} {result : Except FlushFailure Unit}
    (taken : Step limit drain (.answer key result) next now) {mutation : Mutation}
    {failures : Nat} (held : drain.flush? key = some ⟨key, mutation, failures, .calling⟩) :
    (result = .ok () ∧ now = [.answered key mutation .ok]) ∨
      ∃ failure, result = .error failure ∧
        ((failure.isRetryable = false ∧ now = [.answered key mutation .rejected]) ∨
          (failure.isRetryable = true ∧ (now = [.answered key mutation .retry] ∨
            now = [.answered key mutation .retry, .retrying key failure]))) := by
  cases taken with
  | succeed parked calling =>
      obtain ⟨_, rfl, _⟩ := Flush.mk.inj (Option.some.inj (held.symm.trans calling))
      exact .inl ⟨rfl, rfl⟩
  | reject parked calling final =>
      obtain ⟨_, rfl, _⟩ := Flush.mk.inj (Option.some.inj (held.symm.trans calling))
      exact .inr ⟨_, rfl, .inl ⟨final, rfl⟩⟩
  | backOff parked calling retryable running =>
      obtain ⟨_, rfl, _⟩ := Flush.mk.inj (Option.some.inj (held.symm.trans calling))
      exact .inr ⟨_, rfl, .inr ⟨retryable, .inr rfl⟩⟩
  | abandon parked calling retryable cancelled =>
      obtain ⟨_, rfl, _⟩ := Flush.mk.inj (Option.some.inj (held.symm.trans calling))
      exact .inr ⟨_, rfl, .inr ⟨retryable, .inl rfl⟩⟩

theorem Step.persisted_of_answer {key : Key} {result : Except FlushFailure Unit}
    (taken : Step limit drain (.answer key result) next now) {mutation : Mutation}
    {failures : Nat} (held : drain.flush? key = some ⟨key, mutation, failures, .calling⟩)
    (other : Key) :
    (history other now).filterMap Event.persisted? =
      match result with
      | .ok () => if key = other then [mutation] else []
      | .error _ => [] := by
  rcases taken.of_answer held with ⟨rfl, rfl⟩ | ⟨failure, rfl, ⟨_, rfl⟩ | ⟨_, rfl | rfl⟩⟩
  · by_cases same : key = other <;> simp [history, Event.key?, Event.persisted?, same]
  all_goals exact persisted_eq_nil (by simp)

end Drain

namespace Service

variable {Key Mutation World : Type} [DecidableEq Key] [Mergeable Mutation]

/-- One step, if it is possible. -/
def step? (writer : Writer Key Mutation World) (limit : Nat)
    (service : Service Key Mutation World) :
    Action Key Mutation World → Option (Service Key Mutation World × List (Event Key Mutation))
  | .drive action =>
      if isFree action then
        (service.drain.step? limit action).map fun outcome =>
          (⟨outcome.1, service.world⟩, outcome.2)
      else
        none
  | .write key =>
      match service.drain.flush? key with
      | some ⟨_, mutation, _, .calling⟩ =>
          (writer service.world key mutation).bind fun written =>
            (service.drain.step? limit (.answer key written.1)).map fun outcome =>
              (⟨outcome.1, written.2⟩, outcome.2)
      | _ => none
  | .change update => some (⟨service.drain, update service.world⟩, [])

/-- The state and the events after actions that are possible one after the other. -/
def run? (writer : Writer Key Mutation World) (limit : Nat)
    (service : Service Key Mutation World) (actions : List (Action Key Mutation World)) :
    Option (Service Key Mutation World × List (Event Key Mutation)) :=
  runOf (step? writer limit) service actions

/-- What a single step can do. -/
inductive Step (writer : Writer Key Mutation World) (limit : Nat)
    (service : Service Key Mutation World) :
    Action Key Mutation World → Service Key Mutation World → List (Event Key Mutation) →
      Prop where
  | drive {action : Dispatch.Action Key Mutation} {next : Drain Key Mutation}
      {events : List (Event Key Mutation)} (free : isFree action = true)
      (taken : service.drain.step? limit action = some (next, events)) :
      Step writer limit service (.drive action) ⟨next, service.world⟩ events
  | write {key : Key} {mutation : Mutation} {failures : Nat}
      {result : Except FlushFailure Unit} {world : World} {next : Drain Key Mutation}
      {events : List (Event Key Mutation)}
      (held : service.drain.flush? key = some ⟨key, mutation, failures, .calling⟩)
      (written : writer service.world key mutation = some (result, world))
      (taken : service.drain.step? limit (.answer key result) = some (next, events)) :
      Step writer limit service (.write key) ⟨next, world⟩ events
  | change {update : World → World} :
      Step writer limit service (.change update) ⟨service.drain, update service.world⟩ []

variable {writer : Writer Key Mutation World} {limit : Nat}
  {service next : Service Key Mutation World}

theorem Step.of_step? {action : Action Key Mutation World} {events : List (Event Key Mutation)}
    (taken : service.step? writer limit action = some (next, events)) :
    Step writer limit service action next events := by
  cases action with
  | drive action =>
      simp only [step?] at taken
      split at taken
      · rename_i free
        obtain ⟨⟨drain, now⟩, done, same⟩ := Option.map_eq_some_iff.mp taken
        obtain ⟨rfl, rfl⟩ := Prod.mk.inj same
        exact .drive free done
      · simp at taken
  | write key =>
      simp only [step?] at taken
      split at taken
      · rename_i other mutation failures held
        obtain rfl : other = key := Drain.key_of_flush? held
        obtain ⟨⟨result, world⟩, written, answered⟩ := Option.bind_eq_some_iff.mp taken
        obtain ⟨⟨drain, now⟩, done, same⟩ := Option.map_eq_some_iff.mp answered
        obtain ⟨rfl, rfl⟩ := Prod.mk.inj same
        exact .write held written done
      · simp at taken
  | change update =>
      simp only [step?, Option.some.injEq, Prod.mk.injEq] at taken
      obtain ⟨rfl, rfl⟩ := taken
      exact .change

/-- A call that reaches the world, and what comes of it. -/
theorem Step.of_write {key : Key} {events : List (Event Key Mutation)}
    (taken : Step writer limit service (.write key) next events) :
    ∃ mutation failures result world,
      service.drain.flush? key = some ⟨key, mutation, failures, .calling⟩ ∧
      writer service.world key mutation = some (result, world) ∧
      ∀ failure, result = .error failure → failure.isRetryable = false →
        .answered key mutation .rejected ∈ events := by
  cases taken with
  | write held written answered =>
      refine ⟨_, _, _, _, held, written, ?_⟩
      rintro failure rfl final
      rcases (Drain.Step.of_step? answered).of_answer held with
        ⟨impossible, _⟩ | ⟨_, given, ⟨_, rfl⟩ | ⟨retryable, _⟩⟩
      · simp at impossible
      · exact List.mem_singleton_self _
      · obtain rfl := Except.error.inj given
        simp [final] at retryable

/-- A refusal comes of a call to which the world has a final answer. -/
theorem Step.of_rejected {action : Action Key Mutation World} {events : List (Event Key Mutation)}
    (taken : Step writer limit service action next events) {key : Key} {mutation : Mutation}
    (refused : .answered key mutation .rejected ∈ events) :
    action = .write key ∧ events = [.answered key mutation .rejected] ∧
      ∃ failures failure world,
        service.drain.flush? key = some ⟨key, mutation, failures, .calling⟩ ∧
        writer service.world key mutation = some (.error failure, world) ∧
        failure.isRetryable = false := by
  cases taken with
  | drive free taken =>
      exact absurd refused ((Drain.Step.of_step? taken).tally_of_free free key mutation).2
  | write held written answered =>
      rename_i other pending failures result world drain
      rcases (Drain.Step.of_step? answered).of_answer held with
        ⟨rfl, rfl⟩ | ⟨failure, rfl, ⟨final, rfl⟩ | ⟨_, rfl | rfl⟩⟩
      · simp at refused
      · obtain ⟨rfl, rfl⟩ : key = other ∧ mutation = pending := by simpa using refused
        exact ⟨rfl, rfl, failures, failure, world, held, written, final⟩
      · simp at refused
      · simp at refused
  | change => simp at refused

/-! ## Runs -/

/-- The mutation that is submitted for a key by an action. -/
def Action.offer? (key : Key) : Action Key Mutation World → Option Mutation
  | drive action => action.offer? key
  | _ => none

/-- A step of a service is a step of its dispatcher, or none. -/
theorem Step.trace {action : Action Key Mutation World} {events : List (Event Key Mutation)}
    (taken : Step writer limit service action next events) :
    ∃ trace, service.drain.run? limit trace = some (next.drain, events) ∧
      (∀ key, trace.filterMap (Dispatch.Action.offer? key) = (action.offer? key).toList) ∧
        (.cancel ∈ trace → action = .drive .cancel) := by
  cases taken with
  | drive free taken =>
      rename_i action next
      refine ⟨[action], ?_, ?_, ?_⟩
      · exact runOf_singleton.mpr taken
      · intro key
        cases offered : action.offer? key <;> simp [Action.offer?, offered]
      · intro member
        rw [List.mem_singleton.mp member]
  | write held written taken =>
      rename_i key mutation failures result world next
      refine ⟨[.answer key result], ?_, ?_, ?_⟩
      · exact runOf_singleton.mpr taken
      · intro other
        rfl
      · simp
  | change => exact ⟨[], rfl, fun _ => rfl, by simp⟩

/-- A run of a service is a run of its dispatcher with the same submissions. -/
theorem trace_of_run {actions : List (Action Key Mutation World)}
    {events : List (Event Key Mutation)}
    (run : service.run? writer limit actions = some (next, events)) :
    ∃ trace, service.drain.run? limit trace = some (next.drain, events) ∧
      (∀ key, trace.filterMap (Dispatch.Action.offer? key) =
        actions.filterMap (Action.offer? key)) ∧
        (.cancel ∈ trace → .drive .cancel ∈ actions) := by
  refine runOf_induction (motive := fun actions next events =>
    ∃ trace, service.drain.run? limit trace = some (next.drain, events) ∧
      (∀ key, trace.filterMap (Dispatch.Action.offer? key) =
        actions.filterMap (Action.offer? key)) ∧
        (.cancel ∈ trace → .drive .cancel ∈ actions)) ⟨[], rfl, fun _ => rfl, by simp⟩ ?_ run
  rintro actions middle events action next now _ ⟨trace, front, offers, cancels⟩ taken
  obtain ⟨last, back, offered, cancelled⟩ := (Step.of_step? taken).trace
  refine ⟨trace ++ last, ?_, ?_, ?_⟩
  · exact runOf_append.mpr ⟨_, _, _, front, back, rfl⟩
  · intro key
    rw [List.filterMap_append, List.filterMap_append, offers, offered]
    cases held : action.offer? key <;> simp [held]
  · intro member
    rcases List.mem_append.mp member with earlier | later
    · exact List.mem_append_left _ (cancels earlier)
    · rw [cancelled later]
      simp

section Initial

variable {world : World} {actions : List (Action Key Mutation World)}
  {events : List (Event Key Mutation)}

theorem consistent_of_run
    (run : run? writer limit ⟨Drain.initial, world⟩ actions = some (service, events)) :
    service.drain.Consistent := by
  obtain ⟨trace, run, _⟩ := trace_of_run run
  exact Drain.consistent_of_run run

theorem ledger_of_run
    (run : run? writer limit ⟨Drain.initial, world⟩ actions = some (service, events)) (key : Key) :
    ∃ ledger : Ledger Mutation,
      ledger.Accounts (service.drain.standing key) (history key events) := by
  obtain ⟨trace, run, _⟩ := trace_of_run run
  exact Drain.ledger_of_run run key

theorem offers_of_run
    (run : run? writer limit ⟨Drain.initial, world⟩ actions = some (service, events)) (key : Key) :
    (history key events).filterMap Event.offered? = actions.filterMap (Action.offer? key) := by
  obtain ⟨trace, run, offers, _⟩ := trace_of_run run
  rw [Drain.offers_of_run run, offers]

theorem running_of_run
    (run : run? writer limit ⟨Drain.initial, world⟩ actions = some (service, events))
    (going : .drive .cancel ∉ actions) : service.drain.Running events := by
  obtain ⟨trace, run, _, cancels⟩ := trace_of_run run
  exact Drain.running_of_run run fun member => going (cancels member)

theorem rejected_of_run
    (run : run? writer limit ⟨Drain.initial, world⟩ actions = some (service, events)) (key : Key) :
    (key ∈ service.drain.table.dropped ↔ ∃ failure, .rejected key failure ∈ events) ∧
      ∀ mutation, .ignored key mutation ∈ events → ∃ failure, .rejected key failure ∈ events := by
  obtain ⟨trace, run, _⟩ := trace_of_run run
  exact Drain.rejected_of_run run key

/-- A key of which no call was refused, and nothing was dropped at shutdown, has all its mutations
accepted and none lost. -/
theorem safe_of_run
    (run : run? writer limit ⟨Drain.initial, world⟩ actions = some (service, events)) {key : Key}
    (allowed : ∀ mutation, .answered key mutation .rejected ∉ events)
    (kept : ∀ failure, .abandoned key failure ∉ events)
    (taken : ∀ mutation, .refused key mutation ∉ events) :
    (history key events).filterMap Event.loss? = [] ∧
      (history key events).filterMap Event.taken? = actions.filterMap (Action.offer? key) := by
  obtain ⟨ledger, accounts⟩ := ledger_of_run run key
  have safe : (history key events).filterMap Event.loss? = [] := by
    apply accounts.lossless
    · intro mutation member
      obtain ⟨event, among, answer⟩ := List.mem_filterMap.mp member
      obtain ⟨other, rfl⟩ := Event.eq_answered answer
      obtain ⟨reported, about⟩ := mem_history.mp among
      obtain rfl : other = key := Option.some.inj about
      exact allowed mutation reported
    · intro failure member
      obtain ⟨event, among, lost⟩ := List.mem_filterMap.mp member
      obtain ⟨other, rfl⟩ := Event.eq_abandoned lost
      obtain ⟨reported, about⟩ := mem_history.mp among
      obtain rfl : other = key := Option.some.inj about
      exact kept failure reported
  refine ⟨safe, ?_⟩
  rw [← offers_of_run run]
  apply Event.taken_eq_offered
  · intro other mutation member
    obtain ⟨reported, about⟩ := mem_history.mp member
    obtain rfl : other = key := Option.some.inj about
    exact taken mutation reported
  · intro other mutation member
    obtain ⟨reported, about⟩ := mem_history.mp member
    obtain rfl : other = key := Option.some.inj about
    obtain ⟨failure, lost⟩ := (rejected_of_run run other).2 mutation reported
    have nothing := List.filterMap_eq_nil_iff.mp safe _ (mem_history.mpr ⟨lost, rfl⟩)
    simp [Event.loss?] at nothing

/-- What merging keeps and all submitted mutations of a key have, its calls have. -/
theorem call_of_run {Holds : Mutation → Prop}
    (closed : ∀ earlier later, Holds earlier → Holds later → Holds (Mergeable.merge earlier later))
    (run : run? writer limit ⟨Drain.initial, world⟩ actions = some (service, events)) {key : Key}
    (offered : ∀ mutation ∈ actions.filterMap (Action.offer? key), Holds mutation)
    {mutation : Mutation} {failures : Nat}
    (held : service.drain.flush? key = some ⟨key, mutation, failures, .calling⟩) :
    Holds mutation := by
  obtain ⟨ledger, accounts⟩ := ledger_of_run run key
  obtain ⟨next, flushing⟩ := (consistent_of_run run).isFlushing_of_flush? held
  rw [Drain.standing_of_flushing flushing held] at accounts
  obtain ⟨block, earlier, flying, rfl⟩ := accounts.flight_of_flushing (by simp)
  apply Block.merged_of_all closed
  intro mutation member
  apply offered
  rw [← offers_of_run run key]
  have taken : mutation ∈ (history key events).filterMap Event.taken? := by
    rw [accounts.taken, Ledger.mutations, flying]
    simp [member]
  exact Event.offered_of_taken taken

end Initial

end Service
end Dispatch
end Intake
