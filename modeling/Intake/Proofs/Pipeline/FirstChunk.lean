import Intake.Proofs.Pipeline.Admission

/-!
# Rows of jobs whose first chunk comes late

Each fresh chunk hands over the creation of the row of its job.  If completions of the job come
first, it depends on the flushes whether that creation is in time: a delta that is merged with it is
written, while a delta that is flushed alone is refused for good and takes the job with it.
`Office.fresh_chunk_needs_creation` tells when a job with a fresh chunk has its row.
-/

namespace Intake

open Dispatch

namespace Office

/-! ## Fresh chunks -/

/-- The total on a chunk of a job that is fresh. -/
def Action.freshTotal? (signals : Signals) (job : Uuid) : Action → Option (Option Int64)
  | chunk event =>
      if event.job = job ∧ (signals.chunkReceived event).1 = .fresh then some event.totalRecords
      else none
  | _ => none

/-- The totals on the fresh chunks of a job, in order of arrival. -/
def freshTotals (signals : Signals) (job : Uuid) : List Action → List (Option Int64)
  | [] => []
  | action :: rest =>
      (action.freshTotal? signals job).toList ++ freshTotals (action.raise signals).1 job rest

/-- What an action hands over for progress of a job are its signals, with the totals of fresh
chunks. -/
theorem signals_of_raise (signals : Signals) (job : Uuid) (action : Action) :
    ∃ raised : List ProgressSignal,
      (action.raise signals).2.filterMap (progressOf? job) =
        raised.map (ProgressSignal.mutation job) ∧
      raised.filterMap ProgressSignal.total? =
        (action.freshTotal? signals job).toList.filterMap id ∧
      (raised = [] → action.freshTotal? signals job = none) := by
  cases action with
  | chunk event =>
      rw [raise_chunk]
      cases admission : (signals.chunkReceived event).1 with
      | duplicate =>
          have none : (Action.chunk event).freshTotal? signals job = none := by
            simp [Action.freshTotal?, admission]
          exact ⟨[], rfl, by rw [none]; rfl, fun _ => none⟩
      | fresh =>
          by_cases same : event.job = job
          · subst same
            refine ⟨[.create event.totalRecords], ?_, ?_, by simp⟩
            · simp [progressOf?, ProgressSignal.mutation]
            · cases known : event.totalRecords <;>
                simp [Action.freshTotal?, admission, ProgressSignal.total?, known]
          · have none : (Action.chunk event).freshTotal? signals job = none := if_neg (same ·.1)
            exact ⟨[], by simp [progressOf?, same], by rw [none]; rfl, fun _ => none⟩
  | record event createdAt =>
      rw [raise_record]
      by_cases same : event.job = job
      · subst same
        exact ⟨[.completed (event.status == .completed)],
          by simp [progressOf?, ProgressSignal.mutation], rfl, fun _ => rfl⟩
      · exact ⟨[], by simp [progressOf?, same], rfl, fun _ => rfl⟩
  | hand | progress | journal | outage => exact ⟨[], rfl, rfl, fun _ => rfl⟩

/-- What is handed over for progress of a job are its signals, with the totals of fresh chunks. -/
theorem signals_of_heed (signals : Signals) (job : Uuid) (actions : List Action) :
    ∃ raised : List ProgressSignal,
      (heed signals actions).2.filterMap (progressOf? job) =
        raised.map (ProgressSignal.mutation job) ∧
      raised.filterMap ProgressSignal.total? = (freshTotals signals job actions).filterMap id ∧
      (raised = [] → freshTotals signals job actions = []) := by
  induction actions generalizing signals with
  | nil => exact ⟨[], rfl, rfl, fun _ => rfl⟩
  | cons action rest ih =>
      obtain ⟨first, handed, totals, none⟩ := signals_of_raise signals job action
      obtain ⟨later, handedLater, totalsLater, noneLater⟩ := ih (action.raise signals).1
      refine ⟨first ++ later, ?_, ?_, ?_⟩
      · simp only [heed, List.filterMap_append, handed, handedLater, List.map_append]
      · rw [List.filterMap_append, totals, totalsLater, freshTotals, List.filterMap_append]
      · intro empty
        obtain ⟨nothing, nothingLater⟩ := List.append_eq_nil_iff.mp empty
        rw [freshTotals, none nothing, noneLater nothingLater]
        rfl

/-! ## Calls of progress -/

section Runs

variable {limits : Desk → Nat} {signals : Signals} {start : Store} {actions : List Action}
  {office : Office} {reports : List Report} {job : Uuid}

/-- Every call of progress of a job that reaches the store while it is there comes when the row of
the job is there, or creates it. -/
def CreatesFirst (limits : Desk → Nat) (signals : Signals) (start : Store) (job : Uuid)
    (actions : List Action) : Prop :=
  ∀ before own after middle earlier mutation failures,
    actions = before ++ .progress (.write job) own :: after →
      run? limits (opened signals start) before = some (middle, earlier) →
        middle.store.unavailable = false →
          middle.progress.flush? job = some ⟨job, mutation, failures, .calling⟩ →
            Written start job earlier ∨ mutation.createsJob = true

/-- What a call of progress brings about. -/
theorem answer_of_progress
    (run : run? limits (opened signals start) actions = some (office, reports))
    {mutation : ProgressMutation} {failures : Nat}
    (held : office.progress.flush? job = some ⟨job, mutation, failures, .calling⟩)
    {result : Except FlushFailure Unit} {store : Store}
    (written : Store.progressWriter office.store job mutation = some (result, store)) :
    (result = .ok () ∧ (Written start job reports ∨ mutation.createsJob = true)) ∨
      (∃ failure, result = .error failure ∧ failure.isRetryable = true ∧
        office.store.unavailable = true) ∨
      ∃ failure, result = .error failure ∧ failure.isRetryable = false ∧
        office.store.unavailable = false ∧
          ¬(Written start job reports ∨ mutation.createsJob = true) := by
  obtain ⟨trace, ran, own, _⟩ := progress_of_run run
  rw [← hasRow_iff run]
  cases write_of_run own ran held written with
  | away absent => exact .inr (.inl ⟨_, rfl, rfl, absent⟩)
  | unknown present missing creates =>
      refine .inr (.inr ⟨_, rfl, rfl, present, ?_⟩)
      simp [missing, creates]
  | done _ known =>
      refine .inl ⟨rfl, ?_⟩
      by_cases missing : office.store.progress.get? job = none
      · exact .inr (known missing)
      · exact .inl missing

/-- Progress of a job is refused exactly if a call of it finds no row and creates none. -/
theorem allowed_iff_createsFirst
    (run : run? limits (opened signals start) actions = some (office, reports)) :
    (∀ mutation, .progress (.answered job mutation .rejected) ∉ reports) ↔
      CreatesFirst limits signals start job actions := by
  have calls :
      (∀ mutation, .answered job mutation .rejected ∉ reports.filterMap Report.progress?) ↔ _ :=
    allowed_iff_calls Step.progress_seen run
  constructor
  · intro allowed before own after middle earlier mutation failures parts front present held
    have fine := calls.mp fun mutation member => allowed mutation (mem_progress.mp member)
    obtain ⟨split, same, rfl, rfl⟩ := exists_split run parts front
    have write : split.action.progress? = some (.write job) := by
      rw [same]
      rfl
    obtain ⟨pending, _, result, store, calling, written, _⟩ :=
      (Step.of_step? split.taken).progress_seen.of_write write
    obtain ⟨_, rfl, rfl, _⟩ := Flush.mk.inj (Option.some.inj (held.symm.trans calling))
    rcases answer_of_progress split.before held written with
      ⟨_, either⟩ | ⟨_, _, _, absent⟩ | ⟨failure, rfl, final, _, _⟩
    · exact either
    · simp [present] at absent
    · have retryable := fine split write mutation failures failure store held written
      simp [final] at retryable
  · intro first mutation member
    refine calls.mpr ?_ mutation (mem_progress.mpr member)
    intro split write mutation failures failure store held written
    obtain ⟨own, same⟩ := eq_of_progress? write
    rcases answer_of_progress split.before held written with
      ⟨impossible, _⟩ | ⟨_, given, retryable, _⟩ | ⟨_, _, _, present, neither⟩
    · simp at impossible
    · rwa [Except.error.inj given]
    · have either := first split.front own split.back split.middle split.earlier mutation
        failures (same ▸ split.actions_eq) split.before present held
      exact absurd either neither

/-- A job that was refused has no row, and is dropped once its progress is idle. -/
theorem lost_of_refused
    (run : run? limits (opened signals start) actions = some (office, reports))
    {mutation : ProgressMutation}
    (refused : .progress (.answered job mutation .rejected) ∈ reports) :
    office.store.progress.get? job = none ∧
      (office.progress.table.states.get? job = none → job ∈ office.progress.table.dropped) := by
  obtain ⟨trace, ran, own, alone, _⟩ := progress_of_run run
  have reported := mem_progress.mpr refused
  exact ⟨row_of_refused own (alone job) ran reported, (Service.barred_of_run ran reported).dropped⟩

/-- The row of an idle job that was not refused has the last known total of its fresh chunks. -/
theorem total_of_allowed
    (run : run? limits (opened signals start) actions = some (office, reports))
    (going : ∀ action ∈ actions, action.shutdown? ≠ some .progress)
    (allowed : ∀ mutation, .progress (.answered job mutation .rejected) ∉ reports)
    (arrived : freshTotals signals job actions ≠ [])
    (handed : office.inHand.filterMap (progressOf? job) = [])
    (idle : office.progress.table.states.get? job = none) :
    ∃ row, office.store.progress.get? job = some row ∧
      row.total = ((freshTotals signals job actions).filterMap id).getLast?.or
        (start.origin job).total := by
  obtain ⟨trace, ran, own, alone, offers, cancels⟩ := progress_of_run run
  obtain ⟨raised, signalled, totals, none⟩ := signals_of_heed signals job actions
  have submitted : trace.filterMap (Service.Action.offer? job) =
      raised.map (ProgressSignal.mutation job) := by
    have all := offers job
    rwa [handed, List.append_nil, signalled] at all
  have running : .drive .cancel ∉ trace := by
    intro member
    obtain ⟨action, among, shut⟩ := cancels member
    exact going action among shut
  have begun : trace.filterMap (Service.Action.offer? job) ≠ [] := by
    intro empty
    rw [submitted, List.map_eq_nil_iff] at empty
    exact arrived (none empty)
  have row := row_of_allowed own (alone job) running ran
    (fun mutation member => allowed mutation (mem_progress.mp member)) idle (.inr begun)
  rw [submitted, ProgressSignal.foldl_act, totals] at row
  exact ⟨_, row, rfl⟩

end Runs

/-- A job with a fresh chunk has its row, with the last known total of its fresh chunks, exactly if
no call of its progress comes before the row without creating it.  So it is for a job that had its
row, and for one whose first signal was a fresh chunk.  Otherwise the job is dropped for good. -/
theorem fresh_chunk_needs_creation {limits : Desk → Nat} {signals : Signals} {start : Store}
    {actions : List Action} {office : Office} {reports : List Report} {job : Uuid}
    (run : run? limits (opened signals start) actions = some (office, reports))
    (going : ∀ action ∈ actions, action.shutdown? ≠ some .progress)
    (arrived : freshTotals signals job actions ≠ [])
    (handed : office.inHand.filterMap (progressOf? job) = [])
    (idle : office.progress.table.states.get? job = none) :
    (CreatesFirst limits signals start job actions →
      ∃ row, office.store.progress.get? job = some row ∧
        row.total = ((freshTotals signals job actions).filterMap id).getLast?.or
          (start.origin job).total) ∧
    (¬CreatesFirst limits signals start job actions →
      office.store.progress.get? job = none ∧ job ∈ office.progress.table.dropped) ∧
    (start.progress.get? job ≠ none ∨ Admitted signals job actions →
      CreatesFirst limits signals start job actions) := by
  refine ⟨fun first => ?_, fun late => ?_, ?_⟩
  · exact total_of_allowed run going ((allowed_iff_createsFirst run).mpr first) arrived handed idle
  · have refused : ∃ mutation, .progress (.answered job mutation .rejected) ∈ reports := by
      by_contra none
      exact late ((allowed_iff_createsFirst run).mp fun mutation member => none ⟨mutation, member⟩)
    obtain ⟨mutation, member⟩ := refused
    obtain ⟨missing, dropped⟩ := lost_of_refused run member
    exact ⟨missing, dropped idle⟩
  · rintro (row | admitted)
    · intro before own after middle earlier mutation failures _ _ _ _
      exact .inl (.inl row)
    · exact (allowed_iff_createsFirst run).mp (progress_of_admitted run admitted going).1

/-- What the dispatcher of progress does of its own. -/
def ownProgress (does : Service.Action Uuid ProgressMutation Store) : Option Action :=
  if own : isOwn does = true then some (.progress does own) else none

/-- A flush of progress of a job whose first call has a final answer. -/
def oneFlush (job : Uuid) : List Action :=
  [.drive .start, .drive .park, .drive (.call job), .write job,
    .drive (.collect job)].filterMap ownProgress

/-- A record comes before the first chunk, and both wait for the same flush. -/
def sameFlush : List Action :=
  [.record onlyRecord .epoch, .chunk onlyChunk, .hand 0, .hand 1] ++ oneFlush .zero

theorem sameFlush_creates_row :
    ∃ office reports row,
      run? (fun _ => 1) (opened newSignals .empty) sameFlush = some (office, reports) ∧
        office.store.progress.get? .zero = some row ∧ row.total = some 1 := by
  have outcome : ((run? (fun _ => 1) (opened newSignals .empty) sameFlush).map fun final =>
      ((final.1.inHand.filterMap (progressOf? .zero)).isEmpty,
        final.1.progress.table.states.contains .zero,
        final.1.progress.table.dropped.contains .zero)) = some (true, false, false) := by
    decide +kernel
  obtain ⟨⟨office, reports⟩, run, checks⟩ := Option.map_eq_some_iff.mp outcome
  simp only [Prod.mk.injEq] at checks
  obtain ⟨empty, absent, kept⟩ := checks
  have handed := List.isEmpty_iff.mp empty
  have idle := Option.not_isSome_iff_eq_none.mp (Bool.eq_false_iff.mp absent)
  have totals : freshTotals newSignals .zero sameFlush = [some 1] := by decide +kernel
  obtain ⟨created, lost, _⟩ := fresh_chunk_needs_creation run (by decide)
    (by rw [totals]; exact List.cons_ne_nil _ _) handed idle
  have first : CreatesFirst (fun _ => 1) newSignals .empty .zero sameFlush := by
    by_contra late
    have dropped := List.contains_iff_mem.mpr (lost late).2
    rw [kept] at dropped
    exact Bool.false_ne_true dropped
  obtain ⟨row, held, total⟩ := created first
  rw [totals] at total
  exact ⟨office, reports, row, run, held, total⟩

/-- A record is flushed before the first chunk. -/
def lateChunk : List Action :=
  [.record onlyRecord .epoch, .hand 0] ++ oneFlush .zero ++ [.chunk onlyChunk, .hand 1]

/-- A job has a fresh chunk and no row, although the store was there all the time. -/
theorem lateChunk_has_no_row :
    ∃ office reports,
      run? (fun _ => 1) (opened newSignals .empty) lateChunk = some (office, reports) ∧
        (∀ action ∈ lateChunk, action.shutdown? = none) ∧
        (∀ unavailable, .outage unavailable ∉ lateChunk) ∧
        freshTotals newSignals .zero lateChunk = [some 1] ∧
        office.inHand.filterMap (progressOf? .zero) = [] ∧
        office.progress.table.states.isEmpty = true ∧
        office.store.progress.get? .zero = none := by
  have outcome : ((run? (fun _ => 1) (opened newSignals .empty) lateChunk).map fun final =>
      ((final.1.inHand.filterMap (progressOf? .zero)).isEmpty,
        final.1.progress.table.states.isEmpty, final.1.store.progress.contains .zero)) =
      some (true, true, false) := by
    decide +kernel
  obtain ⟨⟨office, reports⟩, run, checks⟩ := Option.map_eq_some_iff.mp outcome
  simp only [Prod.mk.injEq] at checks
  obtain ⟨handed, idle, missing⟩ := checks
  refine ⟨office, reports, run, by decide, by simp [lateChunk, oneFlush, ownProgress], by decide +kernel,
    List.isEmpty_iff.mp handed, idle, ?_⟩
  exact Option.not_isSome_iff_eq_none.mp (Bool.eq_false_iff.mp missing)

end Office
end Intake
