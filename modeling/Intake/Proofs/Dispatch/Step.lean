import Intake.Dispatch.Drain
import Intake.Proofs.Run

/-!
# Steps of a dispatcher

`Drain.Step` lists what one step of a dispatcher can do, one rule for each outcome, with the guard
under which it happens.  Statements about all steps follow the rules, and `Drain.run_induction`
carries them to all runs.
-/

namespace Intake
namespace Dispatch

/-- A slot after it took in another mutation. -/
def Slot.absorb {Mutation : Type} [Mergeable Mutation] (mutation : Mutation) :
    Slot Mutation → Slot Mutation
  | waiting earlier => .waiting (Mergeable.merge earlier mutation)
  | flushing (some earlier) => .flushing (some (Mergeable.merge earlier mutation))
  | flushing none => .flushing (some mutation)

namespace Table

variable {Key Mutation : Type} [DecidableEq Key]

/-- Whether a key waits for a flush. -/
def IsWaiting (table : Table Key Mutation) (key : Key) : Prop :=
  ∃ mutation, table.states.get? key = some (.waiting mutation)

/-- Whether a key is being flushed. -/
def IsFlushing (table : Table Key Mutation) (key : Key) : Prop :=
  ∃ next, table.states.get? key = some (.flushing next)

theorem firstWaiting_eq_some {states : KeyMap Key (Slot Mutation)} {ready rest : List Key}
    {key : Key} {mutation : Mutation}
    (found : firstWaiting states ready = (some (key, mutation), rest)) :
    states.get? key = some (.waiting mutation) ∧
      ∃ skipped, ready = skipped ++ key :: rest ∧
        ∀ other ∈ skipped, ∀ earlier, states.get? other ≠ some (.waiting earlier) := by
  induction ready with
  | nil => simp [firstWaiting] at found
  | cons first later ih =>
      cases held : states.get? first with
      | none =>
          simp only [firstWaiting, held] at found
          obtain ⟨value, skipped, rfl, idle⟩ := ih found
          refine ⟨value, first :: skipped, rfl, ?_⟩
          simpa [held] using idle
      | some slot =>
          cases slot with
          | waiting earlier =>
              simp only [firstWaiting, held, Prod.mk.injEq, Option.some.injEq] at found
              obtain ⟨⟨rfl, rfl⟩, rfl⟩ := found
              exact ⟨held, [], rfl, by simp⟩
          | flushing next =>
              simp only [firstWaiting, held] at found
              obtain ⟨value, skipped, rfl, idle⟩ := ih found
              refine ⟨value, first :: skipped, rfl, ?_⟩
              simpa [held] using idle

theorem firstWaiting_eq_none {states : KeyMap Key (Slot Mutation)} {ready rest : List Key}
    (found : firstWaiting states ready = (none, rest)) :
    rest = [] ∧ ∀ other ∈ ready, ∀ earlier, states.get? other ≠ some (.waiting earlier) := by
  induction ready with
  | nil => simpa [firstWaiting] using found.symm
  | cons first later ih =>
      cases held : states.get? first with
      | none =>
          simp only [firstWaiting, held] at found
          simpa [held] using ih found
      | some slot =>
          cases slot with
          | waiting earlier => simp [firstWaiting, held] at found
          | flushing next =>
              simp only [firstWaiting, held] at found
              simpa [held] using ih found

theorem nextReady_eq_some {table next : Table Key Mutation} {key : Key} {mutation : Mutation}
    (found : table.nextReady = (some (key, mutation), next)) :
    ∃ rest, firstWaiting table.states table.ready = (some (key, mutation), rest) ∧
      next = { table with states := table.states.insert key (.flushing none), ready := rest } := by
  unfold nextReady at found
  split at found
  · simp at found
  · rename_i first earlier rest hit
    simp only [Prod.mk.injEq, Option.some.injEq] at found
    obtain ⟨⟨rfl, rfl⟩, rfl⟩ := found
    exact ⟨rest, hit, rfl⟩

theorem nextReady_eq_none {table next : Table Key Mutation}
    (found : table.nextReady = (none, next)) :
    (∀ other ∈ table.ready, ¬ table.IsWaiting other) ∧ next = { table with ready := [] } := by
  unfold nextReady at found
  split at found
  · rename_i rest missed
    obtain ⟨rfl, idle⟩ := firstWaiting_eq_none missed
    simp only [Prod.mk.injEq, true_and] at found
    refine ⟨?_, found.symm⟩
    rintro other member ⟨earlier, held⟩
    exact idle other member earlier held
  · simp at found

private theorem firstWaiting_of_idle (states : KeyMap Key (Slot Mutation)) {ready : List Key}
    (idle : ∀ key ∈ ready, ∀ mutation, states.get? key ≠ some (.waiting mutation)) :
    firstWaiting states ready = (none, []) := by
  induction ready with
  | nil => rfl
  | cons first later ih =>
      have rest := ih fun key member => idle key (List.mem_cons_of_mem _ member)
      have here := idle first List.mem_cons_self
      unfold firstWaiting
      split
      · rename_i mutation held
        exact absurd held (here mutation)
      · exact rest

theorem nextReady_of_idle {table : Table Key Mutation}
    (idle : ∀ key ∈ table.ready, ¬ table.IsWaiting key) :
    table.nextReady = (none, { table with ready := [] }) := by
  have none := firstWaiting_of_idle table.states
    fun key member mutation held => idle key member ⟨mutation, held⟩
  simp [nextReady, none]

end Table

namespace Drain

variable {Key Mutation : Type} [DecidableEq Key]

/-! ## Flushes in progress -/

theorem key_of_flush? {drain : Drain Key Mutation} {key : Key} {flush : Flush Key Mutation}
    (held : drain.flush? key = some flush) : flush.key = key := by
  simpa using List.find?_some held

theorem mem_of_flush? {drain : Drain Key Mutation} {key : Key} {flush : Flush Key Mutation}
    (held : drain.flush? key = some flush) : flush ∈ drain.flushes :=
  List.mem_of_find?_eq_some held

@[simp]
theorem setFlush_table (drain : Drain Key Mutation) (flush : Flush Key Mutation) :
    (drain.setFlush flush).table = drain.table := rfl

@[simp]
theorem keys_setFlush (drain : Drain Key Mutation) (flush : Flush Key Mutation) :
    (drain.setFlush flush).flushes.map Flush.key = drain.flushes.map Flush.key := by
  simp only [setFlush, List.map_map]
  apply List.map_congr_left
  intro other _
  by_cases same : other.key = flush.key <;> simp [same]

@[simp]
theorem length_setFlush (drain : Drain Key Mutation) (flush : Flush Key Mutation) :
    (drain.setFlush flush).flushes.length = drain.flushes.length := by
  simp [setFlush]

private theorem key_replaced (flush other : Flush Key Mutation) :
    (if other.key = flush.key then flush else other).key = other.key := by
  split
  · rename_i same
    exact same.symm
  · rfl

theorem flush?_setFlush (drain : Drain Key Mutation) (flush : Flush Key Mutation) (key : Key) :
    (drain.setFlush flush).flush? key =
      (drain.flush? key).map fun other => if other.key = flush.key then flush else other := by
  unfold flush? setFlush
  dsimp only
  rw [List.find?_map]
  congr 2
  funext other
  simp only [Function.comp_apply, key_replaced]

theorem flush?_setFlush_self {drain : Drain Key Mutation} {flush old : Flush Key Mutation}
    (held : drain.flush? flush.key = some old) :
    (drain.setFlush flush).flush? flush.key = some flush := by
  rw [flush?_setFlush, held, Option.map_some, if_pos (key_of_flush? held)]

theorem flush?_setFlush_of_ne {drain : Drain Key Mutation} {flush : Flush Key Mutation}
    {key : Key} (other : key ≠ flush.key) :
    (drain.setFlush flush).flush? key = drain.flush? key := by
  rw [flush?_setFlush]
  cases held : drain.flush? key with
  | none => rfl
  | some old =>
      rw [Option.map_some, if_neg]
      rwa [key_of_flush? held]

theorem flush?_eq_none {drain : Drain Key Mutation} {key : Key} :
    drain.flush? key = none ↔ key ∉ drain.flushes.map Flush.key := by
  simp [flush?]

theorem mem_keys_of_flush? {drain : Drain Key Mutation} {key : Key} {flush : Flush Key Mutation}
    (held : drain.flush? key = some flush) : key ∈ drain.flushes.map Flush.key :=
  List.mem_map.mpr ⟨flush, mem_of_flush? held, key_of_flush? held⟩

theorem flush?_collect_of_ne (drain : Drain Key Mutation) {key other : Key} (verdict : Verdict)
    (different : other ≠ key) :
    (drain.collect key verdict).1.flush? other = drain.flush? other := by
  unfold flush? Drain.collect
  rw [List.find?_filter]
  congr 1
  funext flush
  by_cases equal : flush.key = other
  · simp [equal, different]
  · simp [equal]

/-! ## Single steps -/

/-- What a single step of a dispatcher can do. -/
inductive Step [Mergeable Mutation] (limit : Nat) (drain : Drain Key Mutation) :
    Action Key Mutation → Drain Key Mutation → List (Event Key Mutation) → Prop where
  | refuse {key : Key} {mutation : Mutation} (closed : drain.table.closed = true) :
      Step limit drain (.submit key mutation) drain [.refused key mutation]
  | ignore {key : Key} {mutation : Mutation} (opened : drain.table.closed = false)
      (barred : key ∈ drain.table.dropped) :
      Step limit drain (.submit key mutation) drain [.ignored key mutation]
  | enqueue {key : Key} {mutation : Mutation} (opened : drain.table.closed = false)
      (welcome : key ∉ drain.table.dropped) (idle : drain.table.states.get? key = none)
      {table : Table Key Mutation}
      (grown : table =
        { drain.table with
          states := drain.table.states.insert key (.waiting mutation)
          ready := drain.table.ready ++ [key] }) :
      Step limit drain (.submit key mutation) { drain with table, permit := true }
        [.accepted key mutation false, .pending table.size]
  | join {key : Key} {mutation : Mutation} (opened : drain.table.closed = false)
      (welcome : key ∉ drain.table.dropped) {slot : Slot Mutation}
      (held : drain.table.states.get? key = some slot) :
      Step limit drain (.submit key mutation)
        { drain with
          table :=
            { drain.table with states := drain.table.states.insert key (slot.absorb mutation) } }
        [.accepted key mutation true]
  | cancel : Step limit drain .cancel { drain with cancelled := true } []
  | start (filling : drain.stage = .filling) (place : drain.flushes.length < limit)
      {key : Key} {mutation : Mutation} {rest : List Key}
      (found : Table.firstWaiting drain.table.states drain.table.ready =
        (some (key, mutation), rest)) :
      Step limit drain .start
        { drain with
          table :=
            { drain.table with
              states := drain.table.states.insert key (.flushing none), ready := rest }
          flushes := drain.flushes ++ [⟨key, mutation, 0, .due⟩] }
        [.started key mutation]
  | parkFull (filling : drain.stage = .filling) (full : limit ≤ drain.flushes.length) :
      Step limit drain .park { drain with stage := .parked } []
  | parkIdle (filling : drain.stage = .filling) (place : drain.flushes.length < limit)
      (idle : ∀ key ∈ drain.table.ready, ¬ drain.table.IsWaiting key)
      (more : drain.isDone = false) :
      Step limit drain .park
        { drain with table := { drain.table with ready := [] }, stage := .parked } []
  | exit (filling : drain.stage = .filling) (place : drain.flushes.length < limit)
      (idle : ∀ key ∈ drain.table.ready, ¬ drain.table.IsWaiting key)
      (done : drain.isDone = true) :
      Step limit drain .exit
        { drain with table := { drain.table with ready := [] }, stage := .exited } []
  | call (parked : drain.stage = .parked) {key : Key} {mutation : Mutation} {failures : Nat}
      (held : drain.flush? key = some ⟨key, mutation, failures, .due⟩) :
      Step limit drain (.call key) (drain.setFlush ⟨key, mutation, failures, .calling⟩)
        [.called key mutation]
  | succeed (parked : drain.stage = .parked) {key : Key} {mutation : Mutation} {failures : Nat}
      (held : drain.flush? key = some ⟨key, mutation, failures, .calling⟩) :
      Step limit drain (.answer key (.ok ()))
        (drain.setFlush ⟨key, mutation, failures, .over .persisted⟩)
        [.answered key mutation .ok]
  | reject (parked : drain.stage = .parked) {key : Key} {mutation : Mutation} {failures : Nat}
      (held : drain.flush? key = some ⟨key, mutation, failures, .calling⟩)
      {failure : FlushFailure} (final : failure.isRetryable = false) :
      Step limit drain (.answer key (.error failure))
        (drain.setFlush ⟨key, mutation, failures, .over (.rejected failure)⟩)
        [.answered key mutation .rejected]
  | backOff (parked : drain.stage = .parked) {key : Key} {mutation : Mutation} {failures : Nat}
      (held : drain.flush? key = some ⟨key, mutation, failures, .calling⟩)
      {failure : FlushFailure} (retryable : failure.isRetryable = true)
      (running : drain.cancelled = false) :
      Step limit drain (.answer key (.error failure))
        (drain.setFlush ⟨key, mutation, failures + 1, .backingOff failure⟩)
        [.answered key mutation .retry, .retrying key failure]
  | abandon (parked : drain.stage = .parked) {key : Key} {mutation : Mutation} {failures : Nat}
      (held : drain.flush? key = some ⟨key, mutation, failures, .calling⟩)
      {failure : FlushFailure} (retryable : failure.isRetryable = true)
      (cancelled : drain.cancelled = true) :
      Step limit drain (.answer key (.error failure))
        (drain.setFlush ⟨key, mutation, failures, .over (.abandoned failure)⟩)
        [.answered key mutation .retry]
  | retry (parked : drain.stage = .parked) {key : Key} {mutation : Mutation} {failures : Nat}
      {failure : FlushFailure}
      (held : drain.flush? key = some ⟨key, mutation, failures, .backingOff failure⟩) :
      Step limit drain (.retry key) (drain.setFlush ⟨key, mutation, failures, .due⟩) []
  | giveUp (parked : drain.stage = .parked) (cancelled : drain.cancelled = true) {key : Key}
      {mutation : Mutation} {failures : Nat} {failure : FlushFailure}
      (held : drain.flush? key = some ⟨key, mutation, failures, .backingOff failure⟩) :
      Step limit drain (.giveUp key)
        (drain.setFlush ⟨key, mutation, failures, .over (.abandoned failure)⟩) []
  | collect (parked : drain.stage = .parked) {key : Key} {mutation : Mutation} {failures : Nat}
      {verdict : Verdict}
      (held : drain.flush? key = some ⟨key, mutation, failures, .over verdict⟩)
      {next : Drain Key Mutation} {events : List (Event Key Mutation)}
      (released : drain.collect key verdict = (next, events)) :
      Step limit drain (.collect key) next events
  | wake (parked : drain.stage = .parked) (permit : drain.permit = true) :
      Step limit drain .wake { drain with stage := .filling, permit := false } []
  | notice (parked : drain.stage = .parked) (cancelled : drain.cancelled = true)
      (unaware : drain.draining = false) :
      Step limit drain .notice
        { drain with table := drain.table.close, stage := .filling, draining := true } []
  | enlist {ticket : Nat}
      (fresh : drain.waiters.get? ticket = none ∨ drain.waiters.get? ticket = some ⟨true, true⟩) :
      Step limit drain (.enlist ticket)
        { drain with waiters := drain.waiters.insert ticket ⟨false, false⟩ } []
  | find {ticket : Nat} {notified : Bool}
      (enlisted : drain.waiters.get? ticket = some ⟨false, notified⟩)
      (idle : drain.table.isIdle = true) :
      Step limit drain (.look ticket) { drain with waiters := drain.waiters.erase ticket }
        [.returned ticket]
  | miss {ticket : Nat} {notified : Bool}
      (enlisted : drain.waiters.get? ticket = some ⟨false, notified⟩)
      (busy : drain.table.isIdle = false) :
      Step limit drain (.look ticket)
        { drain with waiters := drain.waiters.insert ticket ⟨true, notified⟩ } []
  | leave {ticket : Nat} :
      Step limit drain (.leave ticket) { drain with waiters := drain.waiters.erase ticket } []

private theorem submit_step [Mergeable Mutation] (limit : Nat) (drain : Drain Key Mutation)
    (key : Key) (mutation : Mutation) :
    Step limit drain (.submit key mutation) (drain.submit key mutation).1
      (drain.submit key mutation).2 := by
  unfold submit Table.submit
  by_cases closed : drain.table.closed = true
  · simpa [closed] using Step.refuse closed
  · have opened : drain.table.closed = false := by simpa using closed
    by_cases barred : key ∈ drain.table.dropped
    · simpa [opened, barred] using Step.ignore opened barred
    · cases held : drain.table.states.get? key with
      | none => simpa [opened, barred, held] using Step.enqueue opened barred held rfl
      | some slot =>
          have joined : Step limit drain (.submit key mutation) _ _ := .join opened barred held
          match slot with
          | .waiting _ => simpa [opened, barred, held, Slot.absorb] using joined
          | .flushing none => simpa [opened, barred, held, Slot.absorb] using joined
          | .flushing (some _) => simpa [opened, barred, held, Slot.absorb] using joined

private theorem answer_step [Mergeable Mutation] (limit : Nat) {drain : Drain Key Mutation}
    (parked : drain.stage = .parked) {key : Key} {mutation : Mutation} {failures : Nat}
    (held : drain.flush? key = some ⟨key, mutation, failures, .calling⟩)
    (result : Except FlushFailure Unit) :
    Step limit drain (.answer key result)
      (drain.setFlush (afterAnswer drain.cancelled ⟨key, mutation, failures, .calling⟩ result).1)
      (afterAnswer drain.cancelled ⟨key, mutation, failures, .calling⟩ result).2 := by
  match result with
  | .ok () => exact .succeed parked held
  | .error failure =>
      cases retryable : failure.isRetryable with
      | false => simpa [afterAnswer, retryable] using Step.reject parked held retryable
      | true =>
          cases cancelled : drain.cancelled with
          | false =>
              simpa [afterAnswer, retryable] using Step.backOff parked held retryable cancelled
          | true =>
              simpa [afterAnswer, retryable] using Step.abandon parked held retryable cancelled

section Inversion

variable [Mergeable Mutation] {limit : Nat} {drain next : Drain Key Mutation}
  {events : List (Event Key Mutation)}

private theorem Step.of_start (taken : drain.step? limit .start = some (next, events)) :
    Step limit drain .start next events := by
  simp only [step?] at taken
  split at taken
  · rename_i allowed
    split at taken
    · rename_i key mutation table hit
      obtain ⟨rest, found, rfl⟩ := Table.nextReady_eq_some hit
      simp only [Option.some.injEq, Prod.mk.injEq] at taken
      obtain ⟨rfl, rfl⟩ := taken
      exact .start allowed.1 (by simpa [hasPlace] using allowed.2) found
    · simp at taken
  · simp at taken

private theorem Step.of_park (taken : drain.step? limit .park = some (next, events)) :
    Step limit drain .park next events := by
  simp only [step?] at taken
  split at taken
  · rename_i filling
    split at taken
    · rename_i place
      split at taken
      · rename_i table missed
        obtain ⟨idle, rfl⟩ := Table.nextReady_eq_none missed
        split at taken
        · simp at taken
        · rename_i more
          simp only [Option.some.injEq, Prod.mk.injEq] at taken
          obtain ⟨rfl, rfl⟩ := taken
          exact .parkIdle filling (by simpa [hasPlace] using place) idle (by simpa using more)
      · simp at taken
    · rename_i full
      simp only [Option.some.injEq, Prod.mk.injEq] at taken
      obtain ⟨rfl, rfl⟩ := taken
      exact .parkFull filling (by simpa [hasPlace] using full)
  · simp at taken

private theorem Step.of_exit (taken : drain.step? limit .exit = some (next, events)) :
    Step limit drain .exit next events := by
  simp only [step?] at taken
  split at taken
  · rename_i allowed
    split at taken
    · rename_i table missed
      obtain ⟨idle, rfl⟩ := Table.nextReady_eq_none missed
      simp only [Option.some.injEq, Prod.mk.injEq] at taken
      obtain ⟨rfl, rfl⟩ := taken
      exact .exit allowed.1 (by simpa [hasPlace] using allowed.2.1) idle allowed.2.2
    · simp at taken
  · simp at taken

private theorem Step.of_call {key : Key}
    (taken : drain.step? limit (.call key) = some (next, events)) :
    Step limit drain (.call key) next events := by
  simp only [step?] at taken
  split at taken
  · rename_i other mutation failures parked held
    obtain rfl : other = key := key_of_flush? held
    simp only [Option.some.injEq, Prod.mk.injEq] at taken
    obtain ⟨rfl, rfl⟩ := taken
    exact .call parked held
  · simp at taken

private theorem Step.of_answering {key : Key} {result : Except FlushFailure Unit}
    (taken : drain.step? limit (.answer key result) = some (next, events)) :
    Step limit drain (.answer key result) next events := by
  simp only [step?] at taken
  split at taken
  · rename_i other mutation failures parked held
    obtain rfl : other = key := key_of_flush? held
    simp only [Option.some.injEq, Prod.mk.injEq] at taken
    obtain ⟨rfl, rfl⟩ := taken
    exact answer_step limit parked held result
  · simp at taken

private theorem Step.of_retry {key : Key}
    (taken : drain.step? limit (.retry key) = some (next, events)) :
    Step limit drain (.retry key) next events := by
  simp only [step?] at taken
  split at taken
  · rename_i other mutation failures failure parked held
    obtain rfl : other = key := key_of_flush? held
    simp only [Option.some.injEq, Prod.mk.injEq] at taken
    obtain ⟨rfl, rfl⟩ := taken
    exact .retry parked held
  · simp at taken

private theorem Step.of_giveUp {key : Key}
    (taken : drain.step? limit (.giveUp key) = some (next, events)) :
    Step limit drain (.giveUp key) next events := by
  simp only [step?] at taken
  split at taken
  · rename_i other mutation failures failure parked cancelled held
    obtain rfl : other = key := key_of_flush? held
    simp only [Option.some.injEq, Prod.mk.injEq] at taken
    obtain ⟨rfl, rfl⟩ := taken
    exact .giveUp parked cancelled held
  · simp at taken

private theorem Step.of_collect {key : Key}
    (taken : drain.step? limit (.collect key) = some (next, events)) :
    Step limit drain (.collect key) next events := by
  simp only [step?] at taken
  split at taken
  · rename_i other mutation failures verdict parked held
    obtain rfl : other = key := key_of_flush? held
    simp only [Option.some.injEq] at taken
    exact .collect parked held taken
  · simp at taken

private theorem Step.of_enlist {ticket : Nat}
    (taken : drain.step? limit (.enlist ticket) = some (next, events)) :
    Step limit drain (.enlist ticket) next events := by
  simp only [step?] at taken
  split at taken
  · rename_i absent
    simp only [Option.some.injEq, Prod.mk.injEq] at taken
    obtain ⟨rfl, rfl⟩ := taken
    exact .enlist (.inl absent)
  · rename_i served
    simp only [Option.some.injEq, Prod.mk.injEq] at taken
    obtain ⟨rfl, rfl⟩ := taken
    exact .enlist (.inr served)
  · simp at taken

private theorem Step.of_look {ticket : Nat}
    (taken : drain.step? limit (.look ticket) = some (next, events)) :
    Step limit drain (.look ticket) next events := by
  simp only [step?] at taken
  split at taken
  · rename_i notified enlisted
    split at taken
    · rename_i idle
      simp only [Option.some.injEq, Prod.mk.injEq] at taken
      obtain ⟨rfl, rfl⟩ := taken
      exact .find enlisted idle
    · rename_i busy
      simp only [Option.some.injEq, Prod.mk.injEq] at taken
      obtain ⟨rfl, rfl⟩ := taken
      exact .miss enlisted (by simpa using busy)
  · simp at taken

/-- Every possible step is an instance of one of the rules. -/
theorem Step.of_step? {action : Action Key Mutation}
    (taken : drain.step? limit action = some (next, events)) :
    Step limit drain action next events := by
  cases action with
  | submit key mutation =>
      have outcome := submit_step limit drain key mutation
      simp only [step?, Option.some.injEq] at taken
      rwa [taken] at outcome
  | cancel =>
      simp only [step?, Option.some.injEq, Prod.mk.injEq] at taken
      obtain ⟨rfl, rfl⟩ := taken
      exact .cancel
  | start => exact .of_start taken
  | park => exact .of_park taken
  | exit => exact .of_exit taken
  | call => exact .of_call taken
  | answer => exact .of_answering taken
  | retry => exact .of_retry taken
  | giveUp => exact .of_giveUp taken
  | collect => exact .of_collect taken
  | wake =>
      simp only [step?] at taken
      split at taken
      · rename_i allowed
        simp only [Option.some.injEq, Prod.mk.injEq] at taken
        obtain ⟨rfl, rfl⟩ := taken
        exact .wake allowed.1 allowed.2
      · simp at taken
  | notice =>
      simp only [step?] at taken
      split at taken
      · rename_i allowed
        simp only [Option.some.injEq, Prod.mk.injEq] at taken
        obtain ⟨rfl, rfl⟩ := taken
        exact .notice allowed.1 allowed.2.1 (by simpa using allowed.2.2)
      · simp at taken
  | enlist => exact .of_enlist taken
  | look => exact .of_look taken
  | leave ticket =>
      simp only [step?, Option.some.injEq, Prod.mk.injEq] at taken
      obtain ⟨rfl, rfl⟩ := taken
      exact .leave

/-- Every instance of a rule is possible. -/
theorem Step.step?_eq {action : Action Key Mutation} (taken : Step limit drain action next events) :
    drain.step? limit action = some (next, events) := by
  cases taken with
  | refuse closed => simp [step?, submit, Table.submit, closed]
  | ignore opened barred => simp [step?, submit, Table.submit, opened, barred]
  | enqueue opened welcome idle grown =>
      simp [step?, submit, Table.submit, opened, welcome, idle, grown]
  | join opened welcome held =>
      rename_i slot
      cases slot with
      | waiting => simp [step?, submit, Table.submit, opened, welcome, held, Slot.absorb]
      | flushing next =>
          cases next <;> simp [step?, submit, Table.submit, opened, welcome, held, Slot.absorb]
  | cancel => rfl
  | start filling place found => simp [step?, Table.nextReady, filling, hasPlace, place, found]
  | parkFull filling full => simp [step?, filling, hasPlace, Nat.not_lt.mpr full]
  | parkIdle filling place idle more =>
      simp [step?, filling, hasPlace, place, Table.nextReady_of_idle idle, more]
  | exit filling place idle done =>
      simp [step?, filling, hasPlace, place, Table.nextReady_of_idle idle, done]
  | call parked held | retry parked held => simp [step?, parked, held]
  | succeed parked held => simp [step?, parked, held, afterAnswer]
  | reject parked held final => simp [step?, parked, held, afterAnswer, final]
  | backOff parked held retryable running =>
      simp [step?, parked, held, afterAnswer, retryable, running]
  | abandon parked held retryable cancelled =>
      simp [step?, parked, held, afterAnswer, retryable, cancelled]
  | giveUp parked cancelled held => simp [step?, parked, cancelled, held]
  | collect parked held released => simp [step?, parked, held, released]
  | wake parked permit => simp [step?, parked, permit]
  | notice parked cancelled unaware => simp [step?, parked, cancelled, unaware]
  | enlist fresh => rcases fresh with absent | served <;> simp [step?, *]
  | find enlisted idle => simp [step?, enlisted, idle]
  | miss enlisted busy => simp [step?, enlisted, busy]
  | leave => rfl

end Inversion

/-! ## Runs -/

section Runs

variable [Mergeable Mutation]

/-- The state and the events after actions that are possible one after the other. -/
def run? (limit : Nat) (drain : Drain Key Mutation) (actions : List (Action Key Mutation)) :
    Option (Drain Key Mutation × List (Event Key Mutation)) :=
  runOf (step? limit) drain actions

/-- What holds at the start and is kept by every step that follows a run holds after every run. -/
theorem run_induction {limit : Nat} {initial : Drain Key Mutation}
    {motive : List (Action Key Mutation) → Drain Key Mutation → List (Event Key Mutation) → Prop}
    (start : motive [] initial [])
    (step : ∀ actions drain events action next now,
      initial.run? limit actions = some (drain, events) → motive actions drain events →
      Step limit drain action next now → motive (actions ++ [action]) next (events ++ now))
    {actions : List (Action Key Mutation)} {drain : Drain Key Mutation}
    {events : List (Event Key Mutation)}
    (run : initial.run? limit actions = some (drain, events)) : motive actions drain events :=
  runOf_induction start
    (fun actions drain events action next now front held taken =>
      step actions drain events action next now front held (.of_step? taken)) run

end Runs

end Drain
end Dispatch
end Intake
