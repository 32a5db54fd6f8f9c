import Intake.Proofs.Progress.Rows

/-!
# Progress is exact

The accumulator of progress turns signals into mutations.  Once a job is idle its row holds the
counts of its signals and its last known total, wherever the dispatcher cut the stream into flushes
and however often the store was away.
-/

namespace Intake

open Dispatch

/-- What is signalled of a job. -/
inductive ProgressSignal where
  /-- A record was completed, with success or without. -/
  | completed (succeeded : Bool)
  /-- A chunk of the job arrived for the first time. -/
  | create (total : Option Int64)
  /-- The total became known. -/
  | initializeTotal (total : Int64)
  deriving DecidableEq

namespace ProgressSignal

/-- The mutation that is submitted for a signal. -/
def mutation (job : Uuid) : ProgressSignal → ProgressMutation
  | completed succeeded => .delta (.completion job succeeded)
  | create total => .create total
  | initializeTotal total => .setTotal (some total)

/-- The total that a signal makes known. -/
def total? : ProgressSignal → Option Int64
  | completed _ => none
  | create total => total
  | initializeTotal total => some total

theorem isFor_mutation (job : Uuid) (signal : ProgressSignal) :
    (signal.mutation job).IsFor job := by
  intro step member
  cases signal with
  | completed succeeded =>
      rw [List.mem_singleton.mp member]
      cases succeeded <;> rfl
  | create | initializeTotal =>
      rw [List.mem_singleton.mp member]
      trivial

/-- The progress after a signal, with sums that wrap around. -/
theorem act_mutation (job : Uuid) (signal : ProgressSignal) (progress : JobProgress) :
    ProgressMutation.act progress (signal.mutation job) =
      { progress with
        succeeded := progress.succeeded + Int64.ofNat ([signal].count (completed true))
        failed := progress.failed + Int64.ofNat ([signal].count (completed false))
        total := signal.total?.or progress.total } := by
  have zero : Int64.ofNat 0 = 0 := rfl
  have one : Int64.ofNat 1 = 1 := rfl
  match signal with
  | completed true =>
      simp [mutation, ProgressMutation.act, ProgressMutation.delta, ProgressDelta.completion,
        ProgressDelta.success, ProgressStep.act, total?, zero, one]
  | completed false =>
      simp [mutation, ProgressMutation.act, ProgressMutation.delta, ProgressDelta.completion,
        ProgressDelta.failure, ProgressStep.act, total?, zero, one]
  | create none | create (some total) =>
      simp [mutation, ProgressMutation.act, ProgressMutation.create, ProgressStep.act, total?, zero]
  | initializeTotal total =>
      simp [mutation, ProgressMutation.act, ProgressMutation.setTotal, ProgressMutation.mutator,
        ProgressStep.act, total?, zero]

/-- The progress after signals, with sums that wrap around. -/
theorem foldl_act (job : Uuid) (signals : List ProgressSignal) (progress : JobProgress) :
    (signals.map (mutation job)).foldl ProgressMutation.act progress =
      { progress with
        succeeded := progress.succeeded + Int64.ofNat (signals.count (completed true))
        failed := progress.failed + Int64.ofNat (signals.count (completed false))
        total := (signals.filterMap total?).getLast?.or progress.total } := by
  induction signals using List.reverseRecOn with
  | nil =>
      have zero : Int64.ofNat 0 = 0 := rfl
      simp [zero]
  | append_singleton signals signal ih =>
      rw [List.map_append, List.foldl_append, ih, List.map_singleton, List.foldl_cons,
        List.foldl_nil, act_mutation]
      cases known : signal.total? <;> simp [known, Int64.add_assoc]

end ProgressSignal

/-- A count that fits is added to a counter without wrapping around. -/
theorem Counter.toInt_add_ofNat {value : Int64} {count : Nat}
    (fits : Fits (value.toInt + count)) :
    (value + Int64.ofNat count).toInt = value.toInt + count := by
  unfold Fits least bound at fits
  rw [Int64.toInt_add, Int64.toInt_ofNat', Int.add_bmod_bmod]
  unfold Int64.size
  exact Int.bmod_eq_of_le (by omega) (by omega)

/-! ## Runs of the accumulator -/

/-- Whether a step of a dispatcher is neither a submission nor a request to shut down. -/
def isInner {Key Mutation : Type} : Action Key Mutation → Bool
  | .submit .. | .cancel => false
  | _ => true

/-- What can happen around the accumulator. -/
inductive Accumulation where
  /-- Something is signalled of a job. -/
  | signal (job : Uuid) (signal : ProgressSignal)
  /-- The dispatcher goes on. -/
  | drive (action : Action Uuid ProgressMutation) (inner : isInner action = true)
  /-- The call that is under way for a job reaches the store and returns. -/
  | write (job : Uuid)
  /-- The store goes away or comes back, or someone else writes to it. -/
  | change (update : Store → Store)

namespace Accumulation

/-- What happens to the dispatcher and its store. -/
def toService : Accumulation → Service.Action Uuid ProgressMutation Store
  | signal job report => .drive (.submit job (report.mutation job))
  | drive action _ => .drive action
  | write job => .write job
  | change update => .change update

/-- The signal of a job. -/
def signal? (job : Uuid) : Accumulation → Option ProgressSignal
  | signal other report => if other = job then some report else none
  | _ => none

theorem offer?_toService (job : Uuid) (entry : Accumulation) :
    entry.toService.offer? job = (entry.signal? job).map (ProgressSignal.mutation job) := by
  cases entry with
  | signal other report =>
      by_cases same : other = job
      · subst same
        simp [toService, signal?, Service.Action.offer?, Action.offer?]
      · simp [toService, signal?, Service.Action.offer?, Action.offer?, same]
  | drive action inner =>
      cases action with
      | submit => simp [isInner] at inner
      | _ => rfl
  | write | change => rfl

theorem offers_toService (job : Uuid) (entries : List Accumulation) :
    (entries.map toService).filterMap (Service.Action.offer? job) =
      (entries.filterMap (signal? job)).map (ProgressSignal.mutation job) := by
  rw [List.filterMap_map, List.map_filterMap]
  exact List.filterMap_congr fun entry _ => offer?_toService job entry

theorem submitsOwn (entries : List Accumulation) : SubmitsOwn (entries.map toService) := by
  intro job mutation member
  rw [offers_toService] at member
  obtain ⟨signal, _, rfl⟩ := List.mem_map.mp member
  exact signal.isFor_mutation job

theorem cancel_not_mem (entries : List Accumulation) : .drive .cancel ∉ entries.map toService := by
  intro member
  obtain ⟨entry, _, same⟩ := List.mem_map.mp member
  cases entry with
  | drive action inner =>
      obtain rfl := Service.Action.drive.inj same
      simp [isInner] at inner
  | signal | write | change => simp [toService] at same

end Accumulation

/-- Whenever a job that had a row, or whose first signal created it, is idle, its row holds the
counts of its signals and its last known total. -/
theorem progress_is_exact {limit : Nat} {start : Store} {entries : List Accumulation}
    {service : Service Uuid ProgressMutation Store} {events : List (Event Uuid ProgressMutation)}
    {job : Uuid}
    (run : Service.run? Store.progressWriter limit ⟨Drain.initial, start⟩
      (entries.map Accumulation.toService) = some (service, events))
    (alone : ∀ update, .change update ∈ entries →
      ∀ store : Store, (update store).progress.get? job = store.progress.get? job)
    (known : start.progress.get? job ≠ none ∨
      ∃ total later, entries.filterMap (Accumulation.signal? job) = .create total :: later)
    (idle : service.drain.table.states.get? job = none)
    (successes : Counter.Fits ((start.origin job).succeeded.toInt +
      (entries.filterMap (Accumulation.signal? job)).count (.completed true)))
    (failures : Counter.Fits ((start.origin job).failed.toInt +
      (entries.filterMap (Accumulation.signal? job)).count (.completed false))) :
    ∃ row, service.world.progress.get? job = some row ∧
      row.succeeded.toInt = (start.origin job).succeeded.toInt +
        (entries.filterMap (Accumulation.signal? job)).count (.completed true) ∧
      row.failed.toInt = (start.origin job).failed.toInt +
        (entries.filterMap (Accumulation.signal? job)).count (.completed false) ∧
      row.total = ((entries.filterMap (Accumulation.signal? job)).filterMap
        ProgressSignal.total?).getLast?.or (start.origin job).total := by
  have others : LeavesRow job (entries.map Accumulation.toService) := by
    intro update member
    obtain ⟨entry, among, same⟩ := List.mem_map.mp member
    cases entry with
    | change own =>
        obtain rfl := Service.Action.change.inj same
        exact alone own among
    | signal | drive | write => simp [Accumulation.toService] at same
  have announced : Announced start job (entries.map Accumulation.toService) := by
    intro missing first member
    rw [Accumulation.offers_toService] at member
    rcases known with row | ⟨total, later, signals⟩
    · exact absurd missing row
    · rw [signals] at member
      obtain rfl : (ProgressSignal.create total).mutation job = first := by simpa using member
      rfl
  have begun : start.progress.get? job ≠ none ∨
      (entries.map Accumulation.toService).filterMap (Service.Action.offer? job) ≠ [] := by
    rcases known with row | ⟨total, later, signals⟩
    · exact .inl row
    · rw [Accumulation.offers_toService, signals]
      exact .inr (List.cons_ne_nil _ _)
  have row := row_of_idle (Accumulation.submitsOwn entries) others announced
    (Accumulation.cancel_not_mem entries) run idle begun
  rw [Accumulation.offers_toService, ProgressSignal.foldl_act] at row
  exact ⟨_, row, Counter.toInt_add_ofNat successes, Counter.toInt_add_ofNat failures, rfl⟩

/-- A new job whose first flush meets an outage. -/
def lateStart : List Accumulation :=
  [.signal .zero (.create none), .drive .start rfl, .drive .park rfl, .drive (.call .zero) rfl,
    .change (·.setUnavailable true), .signal .zero (.completed true), .write .zero,
    .signal .zero (.completed false), .drive (.retry .zero) rfl, .change (·.setUnavailable false),
    .drive (.call .zero) rfl, .write .zero, .drive (.collect .zero) rfl,
    .signal .zero (.completed true), .drive .start rfl, .drive .park rfl,
    .drive (.call .zero) rfl, .write .zero, .signal .zero (.initializeTotal 3),
    .drive (.collect .zero) rfl, .drive .start rfl, .drive .park rfl, .drive (.call .zero) rfl,
    .write .zero, .drive (.collect .zero) rfl]

theorem lateStart_is_exact :
    ∃ service events row,
      Service.run? Store.progressWriter 1 ⟨Drain.initial, Store.empty⟩
        (lateStart.map Accumulation.toService) = some (service, events) ∧
      service.world.progress.get? .zero = some row ∧ row.succeeded.toInt = 2 ∧
      row.failed.toInt = 1 ∧ row.total = some 3 := by
  have outcome : ((Service.run? Store.progressWriter 1 ⟨Drain.initial, Store.empty⟩
      (lateStart.map Accumulation.toService)).map fun final =>
        final.1.drain.table.states.contains .zero) = some false := by decide +kernel
  obtain ⟨⟨service, events⟩, run, absent⟩ := Option.map_eq_some_iff.mp outcome
  have idle := Option.not_isSome_iff_eq_none.mp (Bool.eq_false_iff.mp absent)
  obtain ⟨row, held, succeeded, failed, total⟩ := progress_is_exact run
    (by
      intro update member store
      simp only [lateStart, List.mem_cons, List.not_mem_nil, or_false, reduceCtorEq, false_or,
        Accumulation.change.injEq] at member
      rcases member with rfl | rfl <;> rfl)
    (.inr ⟨_, _, rfl⟩) idle (by decide) (by decide)
  exact ⟨service, events, row, run, held, succeeded, failed, total⟩

end Intake
