import Intake.Proofs.Pipeline.Calls
import Intake.Proofs.Progress.Exact

/-!
# The journal of an admitted job

The row that a journal refers to is written by the dispatcher of progress.  The first signal of an
admitted job hands over the creation of its row before anything else of the job, and no call of its
progress is refused.  The dispatcher of the journal does not wait for that row: a call that comes
before it is refused for good, and `Office.journal_needs_row` tells exactly when that happens.
-/

namespace Intake

open Dispatch

namespace Office

/-! ## What is handed over -/

/-- The job that is signalled. -/
def Action.job? : Action → Option Uuid
  | chunk event => some event.job
  | record event _ => some event.job
  | _ => none

/-- A chunk hands over the creation of its job if it is fresh. -/
theorem raise_chunk (signals : Signals) (event : ChunkEvent) :
    ((Action.chunk event).raise signals).2 =
      match (signals.chunkReceived event).1 with
      | .fresh => [.progress event.job (.create event.totalRecords)]
      | .duplicate => [] := by
  unfold Action.raise Signals.chunkReceived
  dsimp only
  split <;> rfl

/-- A record hands over its count and its entry. -/
theorem raise_record (signals : Signals) (event : RecordProcessed) (createdAt : Instant) :
    ((Action.record event createdAt).raise signals).2 =
      [.progress event.job (.delta (.completion event.job (event.status == .completed))),
        .journal event.job ⟨[event.journalRecord createdAt]⟩] := rfl

/-- A signal of a job hands over a signal of its progress or one record for its journal. -/
theorem of_raise {signals : Signals} {action : Action} {handover : Handover}
    (member : handover ∈ (action.raise signals).2) :
    ∃ job, action.job? = some job ∧
      ((∃ signal : ProgressSignal, handover = .progress job (signal.mutation job)) ∨
        ∃ record : JournalRecord, record.job = job ∧ handover = .journal job ⟨[record]⟩) := by
  cases action with
  | chunk event =>
      rw [raise_chunk] at member
      split at member
      · exact ⟨_, rfl, .inl ⟨.create event.totalRecords, List.mem_singleton.mp member⟩⟩
      · simp at member
  | record event createdAt =>
      rw [raise_record, List.mem_cons, List.mem_singleton] at member
      rcases member with rfl | rfl
      · exact ⟨_, rfl, .inl ⟨.completed (event.status == .completed), rfl⟩⟩
      · exact ⟨_, rfl, .inr ⟨event.journalRecord createdAt, rfl, rfl⟩⟩
  | hand | progress | journal | outage => simp [Action.raise] at member

/-- What is handed over concerns its own job. -/
def Owns : Handover → Prop
  | .progress job mutation => mutation.IsFor job
  | .journal job batch => batch.IsFor job

theorem owns_of_raise {signals : Signals} {action : Action} {handover : Handover}
    (member : handover ∈ (action.raise signals).2) : Owns handover := by
  obtain ⟨job, _, ⟨signal, rfl⟩ | ⟨record, same, rfl⟩⟩ := of_raise member
  · exact signal.isFor_mutation job
  · refine ⟨List.cons_ne_nil _ _, ?_⟩
    intro other among
    rwa [List.mem_singleton.mp among]

theorem owns_of_heed {signals : Signals} {actions : List Action} {handover : Handover}
    (member : handover ∈ (heed signals actions).2) : Owns handover := by
  induction actions generalizing signals with
  | nil => simp [heed] at member
  | cons action rest ih =>
      rcases List.mem_append.mp member with first | later
      · exact owns_of_raise first
      · exact ih later

/-- Every completion that is signalled hands over its journal record. -/
theorem mem_heed_of_record {signals : Signals} {actions : List Action} {event : RecordProcessed}
    {createdAt : Instant} (member : .record event createdAt ∈ actions) :
    .journal event.job ⟨[event.journalRecord createdAt]⟩ ∈ (heed signals actions).2 := by
  induction actions generalizing signals with
  | nil => simp at member
  | cons action rest ih =>
      rcases List.mem_cons.mp member with rfl | later
      · exact List.mem_append_left _ (List.mem_cons_of_mem _ List.mem_cons_self)
      · exact List.mem_append_right _ (ih later)

/-- The first signal of a job is a chunk that is fresh. -/
def Admitted (signals : Signals) (job : Uuid) (actions : List Action) : Prop :=
  ∃ before event after, actions = before ++ .chunk event :: after ∧ event.job = job ∧
    (∀ action ∈ before, action.job? ≠ some job) ∧
      ((heed signals before).1.chunkReceived event).1 = .fresh

theorem heed_append (signals : Signals) (front back : List Action) :
    (heed signals (front ++ back)).2 =
      (heed signals front).2 ++ (heed (heed signals front).1 back).2 := by
  induction front generalizing signals with
  | nil => rfl
  | cons action front ih =>
      simp only [List.cons_append, heed, ih, List.append_assoc]

theorem progress_of_others (signals : Signals) {actions : List Action} {job : Uuid}
    (others : ∀ action ∈ actions, action.job? ≠ some job) :
    (heed signals actions).2.filterMap (progressOf? job) = [] := by
  induction actions generalizing signals with
  | nil => rfl
  | cons action rest ih =>
      have first : (action.raise signals).2.filterMap (progressOf? job) = [] := by
        refine List.filterMap_eq_nil_iff.mpr fun handover member => ?_
        obtain ⟨other, about, ⟨signal, rfl⟩ | ⟨record, _, rfl⟩⟩ := of_raise member
        · refine if_neg fun same => others action List.mem_cons_self ?_
          rw [about, same]
        · rfl
      have later := ih (action.raise signals).1
        fun action member => others action (List.mem_cons_of_mem _ member)
      simp only [heed, List.filterMap_append, first, later, List.append_nil]

/-- The creation of the row comes first. -/
theorem Admitted.creates {signals : Signals} {job : Uuid} {actions : List Action}
    (admitted : Admitted signals job actions) :
    ∃ total later, (heed signals actions).2.filterMap (progressOf? job) =
      .create total :: later := by
  obtain ⟨before, event, after, rfl, same, others, fresh⟩ := admitted
  refine ⟨event.totalRecords, (heed ((Action.chunk event).raise (heed signals before).1).1
    after).2.filterMap (progressOf? job), ?_⟩
  have raised : ((Action.chunk event).raise (heed signals before).1).2 =
      [.progress job (.create event.totalRecords)] := by
    rw [raise_chunk, fresh, same]
  rw [heed_append, List.filterMap_append, progress_of_others _ others, List.nil_append]
  simp only [heed, List.filterMap_append, raised]
  simp [progressOf?]

/-! ## Runs of either dispatcher -/

section Runs

variable {limits : Desk → Nat} {signals : Signals} {start : Store} {actions : List Action}
  {office : Office} {reports : List Report} {job : Uuid}

/-- A run as the dispatcher of progress sees it. -/
theorem progress_of_run
    (run : run? limits (opened signals start) actions = some (office, reports)) :
    ∃ trace, Service.run? Store.progressWriter (limits .progress) ⟨Drain.initial, start⟩ trace =
        some (⟨office.progress, office.store⟩, reports.filterMap Report.progress?) ∧
      SubmitsOwn trace ∧ (∀ job, LeavesRow job trace) ∧
      (∀ job, trace.filterMap (Service.Action.offer? job) ++
        office.inHand.filterMap (progressOf? job) =
          (heed signals actions).2.filterMap (progressOf? job)) ∧
      (.drive .cancel ∈ trace → ∃ action ∈ actions, action.shutdown? = some .progress) := by
  obtain ⟨trace, traced, cancels⟩ := progressView_follows.of_run run
  refine ⟨trace, traced.run, ?_, ?_, traced.offers, cancels⟩
  · intro job mutation member
    obtain ⟨handover, among, same⟩ := traced.handed_of_offer rfl member
    have owns := owns_of_heed among
    cases handover with
    | progress other mutation => simp_all [progressView, progressOf?, Owns]
    | journal => simp [progressView, progressOf?] at same
  · intro job update member store
    rw [traced.keeps update member store]

/-- A run as the dispatcher of the journal sees it. -/
theorem journal_of_run
    (run : run? limits (opened signals start) actions = some (office, reports)) :
    ∃ trace, Service.run? Store.journalWriter (limits .journal) ⟨Drain.initial, start⟩ trace =
        some (⟨office.journal, office.store⟩, reports.filterMap Report.journal?) ∧
      (∀ job, ∀ batch ∈ trace.filterMap (Service.Action.offer? job), batch.IsFor job) ∧
      LeavesJournal trace ∧
      (∀ job, trace.filterMap (Service.Action.offer? job) ++
        office.inHand.filterMap (batchOf? job) =
          (heed signals actions).2.filterMap (batchOf? job)) ∧
      (.drive .cancel ∈ trace → ∃ action ∈ actions, action.shutdown? = some .journal) := by
  obtain ⟨trace, traced, cancels⟩ := journalView_follows.of_run run
  refine ⟨trace, traced.run, ?_, traced.keeps, traced.offers, cancels⟩
  intro job batch member
  obtain ⟨handover, among, same⟩ := traced.handed_of_offer rfl member
  have owns := owns_of_heed among
  cases handover with
  | progress => simp [journalView, batchOf?] at same
  | journal other batch => simp_all [journalView, batchOf?, Owns]

/-- A job had a row at the start, or its progress was written. -/
def Written (start : Store) (job : Uuid) (reports : List Report) : Prop :=
  start.progress.get? job ≠ none ∨ ∃ mutation, .progress (.answered job mutation .ok) ∈ reports

theorem hasRow_iff (run : run? limits (opened signals start) actions = some (office, reports)) :
    office.store.progress.get? job ≠ none ↔ Written start job reports := by
  obtain ⟨trace, ran, own, alone, _⟩ := progress_of_run run
  have written : (∃ mutation, .progress (.answered job mutation .ok) ∈ reports) ↔
      (history job (reports.filterMap Report.progress?)).filterMap Event.persisted? ≠ [] := by
    constructor
    · rintro ⟨mutation, member⟩
      exact List.ne_nil_of_mem (mem_persisted.mpr (mem_progress.mpr member))
    · intro some
      obtain ⟨mutation, member⟩ := List.exists_mem_of_ne_nil _ some
      exact ⟨mutation, mem_progress.mp (mem_persisted.mp member)⟩
  have row := row_of_run own (alone job) ran
  dsimp only at row
  rw [Written, written, row]
  unfold replayed
  split
  · rename_i none
    simp [none]
  · rename_i some
    simp [some]

/-- Unless it is shut down, progress of a job that is admitted is not refused, and its row is there
once its progress is idle. -/
theorem progress_of_admitted
    (run : run? limits (opened signals start) actions = some (office, reports))
    (admitted : Admitted signals job actions)
    (going : ∀ action ∈ actions, action.shutdown? ≠ some .progress) :
    (∀ mutation, .progress (.answered job mutation .rejected) ∉ reports) ∧
      (office.inHand.filterMap (progressOf? job) = [] →
        office.progress.table.states.get? job = none →
          office.store.progress.get? job ≠ none) := by
  obtain ⟨trace, ran, own, alone, offers, cancels⟩ := progress_of_run run
  obtain ⟨total, later, created⟩ := admitted.creates
  have running : .drive .cancel ∉ trace := by
    intro member
    obtain ⟨action, among, shut⟩ := cancels member
    exact going action among shut
  have announced : Announced start job trace := by
    intro _ first member
    have all := offers job
    rw [created] at all
    cases offered : trace.filterMap (Service.Action.offer? job) with
    | nil => simp [offered] at member
    | cons head tail =>
        rw [offered, List.cons_append] at all
        obtain ⟨rfl, _⟩ := List.cons.inj all
        obtain rfl : ProgressMutation.create total = first := by simpa [offered] using member
        rfl
  constructor
  · intro mutation member
    exact allowed_of_run own (alone job) announced running ran mutation
      (mem_progress.mpr member)
  · intro empty idle
    have offered : trace.filterMap (Service.Action.offer? job) ≠ [] := by
      have all := offers job
      rw [created, empty, List.append_nil] at all
      rw [all]
      exact List.cons_ne_nil _ _
    have row := row_of_idle own (alone job) announced running ran idle (.inr offered)
    dsimp only at row
    simp [row]

/-! ## Calls of the journal -/

/-- Every call of the journal of a job that reaches the store while it is there comes when the row
of the job is there. -/
def RowFirst (limits : Desk → Nat) (signals : Signals) (start : Store) (job : Uuid)
    (actions : List Action) : Prop :=
  ∀ before own after middle earlier, actions = before ++ .journal (.write job) own :: after →
    run? limits (opened signals start) before = some (middle, earlier) →
      middle.store.unavailable = false → Written start job earlier

/-- What a call of the journal brings about. -/
theorem answer_of_call (run : run? limits (opened signals start) actions = some (office, reports))
    {batch : JournalBatch} {failures : Nat}
    (held : office.journal.flush? job = some ⟨job, batch, failures, .calling⟩)
    {result : Except FlushFailure Unit} {store : Store}
    (written : Store.journalWriter office.store job batch = some (result, store))
    (present : office.store.unavailable = false) :
    (result = .ok () ∧ Written start job reports) ∨
      ∃ failure, result = .error failure ∧ failure.isRetryable = false ∧
        ¬Written start job reports := by
  obtain ⟨trace, ran, own, _⟩ := journal_of_run run
  have all : batch.IsFor job :=
    Service.call_of_run JournalBatch.isFor_merge ran (own job) held
  rw [← hasRow_iff run]
  cases Store.JournalWrite.of_writer written with
  | away absent => simp [present] at absent
  | unknown _ member missing =>
      rw [all.2 _ member] at missing
      exact .inr ⟨_, rfl, Store.unknownJob_final _, fun row => row missing⟩
  | done _ known =>
      obtain ⟨record, member⟩ := List.exists_mem_of_ne_nil _ all.1
      refine .inl ⟨rfl, ?_⟩
      rw [← all.2 record member]
      exact known record member

/-- The journal of a job is refused exactly if a call of it comes before the row. -/
theorem allowed_iff_rowFirst
    (run : run? limits (opened signals start) actions = some (office, reports)) :
    (∀ batch, .journal (.answered job batch .rejected) ∉ reports) ↔
      RowFirst limits signals start job actions := by
  have calls : (∀ batch, .answered job batch .rejected ∉ reports.filterMap Report.journal?) ↔ _ :=
    allowed_iff_calls Step.journal_seen run
  constructor
  · intro allowed before own after middle earlier parts front present
    have fine := calls.mp fun batch member => allowed batch (mem_journal.mp member)
    obtain ⟨split, same, rfl, rfl⟩ := exists_split run parts front
    have write : split.action.journal? = some (.write job) := by
      rw [same]
      rfl
    obtain ⟨batch, failures, result, store, held, written, _⟩ :=
      (Step.of_step? split.taken).journal_seen.of_write write
    rcases answer_of_call split.before held written present with
      ⟨_, row⟩ | ⟨failure, rfl, final, _⟩
    · exact row
    · have retryable := fine split write batch failures failure store held written
      simp [final] at retryable
  · intro first batch member
    refine calls.mpr ?_ batch (mem_journal.mpr member)
    intro split write batch failures failure store held written
    change Store.journalWriter split.middle.store job batch = some (.error failure, store) at written
    by_contra final
    -- A store that is away refuses nothing; one that is there has the row by assumption.
    cases absent : split.middle.store.unavailable with
    | true =>
        cases Store.JournalWrite.of_writer written with
        | away => simp at final
        | unknown present => simp [absent] at present
    | false =>
        obtain ⟨own, same⟩ := eq_of_journal? write
        have row := first split.front own split.back split.middle split.earlier
          (same ▸ split.actions_eq) split.before absent
        rcases answer_of_call split.before held written absent with
          ⟨impossible, _⟩ | ⟨_, _, _, missing⟩
        · simp at impossible
        · exact missing row

/-- Once the journal of a job is idle every completion has its entry, if no call of it came before
the row. -/
theorem entries_of_rowFirst
    (run : run? limits (opened signals start) actions = some (office, reports))
    (first : RowFirst limits signals start job actions)
    (going : ∀ action ∈ actions, action.shutdown? ≠ some .journal) :
    job ∉ office.journal.table.dropped ∧
      (office.inHand.filterMap (batchOf? job) = [] →
        office.journal.table.states.get? job = none →
          ∀ event createdAt, .record event createdAt ∈ actions → event.job = job →
            ∃ stored ∈ office.store.journal, stored.id = (event.journalRecord createdAt).id) := by
  obtain ⟨trace, ran, _, alone, offers, cancels⟩ := journal_of_run run
  have running := Service.running_of_run ran fun member => by
    obtain ⟨action, among, shut⟩ := cancels member
    exact going action among shut
  have allowed : ∀ batch, .answered job batch .rejected ∉ reports.filterMap Report.journal? :=
    fun batch member => (allowed_iff_rowFirst run).mpr first batch (mem_journal.mp member)
  constructor
  · intro dropped
    obtain ⟨failure, member⟩ := (Service.rejected_of_run ran job).1.mp dropped
    obtain ⟨safe, _⟩ :=
      Service.safe_of_run ran allowed (running.abandoned job) (running.refused job)
    have nothing := List.filterMap_eq_nil_iff.mp safe _ (mem_history.mpr ⟨member, rfl⟩)
    simp [Event.loss?] at nothing
  · intro empty idle event createdAt member same
    have offered : ⟨[event.journalRecord createdAt]⟩ ∈
        trace.filterMap (Service.Action.offer? job) := by
      have all := offers job
      rw [empty, List.append_nil] at all
      rw [all]
      exact List.mem_filterMap.mpr ⟨_, mem_heed_of_record member, if_pos same⟩
    exact entries_of_idle alone ran allowed (running.abandoned job) (running.refused job) idle _
      offered _ (List.mem_singleton.mpr rfl)

end Runs

/-- No batch of the journal of an admitted job is refused exactly if no call comes before the row,
though that row is never refused.  Then no completion of the job is lost. -/
theorem journal_needs_row {limits : Desk → Nat} {signals : Signals} {start : Store}
    {actions : List Action} {office : Office} {reports : List Report} {job : Uuid}
    (run : run? limits (opened signals start) actions = some (office, reports))
    (admitted : Admitted signals job actions) :
    ((∀ batch, .journal (.answered job batch .rejected) ∉ reports) ↔
      RowFirst limits signals start job actions) ∧
    (RowFirst limits signals start job actions →
      (∀ action ∈ actions, action.shutdown? ≠ some .journal) →
        job ∉ office.journal.table.dropped ∧
        (office.inHand.filterMap (batchOf? job) = [] →
          office.journal.table.states.get? job = none →
            ∀ event createdAt, .record event createdAt ∈ actions → event.job = job →
              ∃ stored ∈ office.store.journal, stored.id = (event.journalRecord createdAt).id)) ∧
    ((∀ action ∈ actions, action.shutdown? ≠ some .progress) →
      (∀ mutation, .progress (.answered job mutation .rejected) ∉ reports) ∧
      (office.inHand.filterMap (progressOf? job) = [] →
        office.progress.table.states.get? job = none →
          office.store.progress.get? job ≠ none)) :=
  ⟨allowed_iff_rowFirst run, fun first going => entries_of_rowFirst run first going,
    fun going => progress_of_admitted run admitted going⟩

/-- How the calls of the journal of a job ended. -/
def tallies (job : Uuid) (reports : List Report) : List Tally :=
  ((history job (reports.filterMap Report.journal?)).filterMap Event.answer?).map Prod.snd

theorem mem_tallies {job : Uuid} {reports : List Report} {tally : Tally} :
    tally ∈ tallies job reports ↔ ∃ batch, .journal (.answered job batch tally) ∈ reports := by
  constructor
  · intro member
    obtain ⟨⟨batch, _⟩, among, rfl⟩ := List.mem_map.mp member
    obtain ⟨event, past, answer⟩ := List.mem_filterMap.mp among
    obtain ⟨key, rfl⟩ := Event.eq_answered answer
    obtain ⟨reported, about⟩ := mem_history.mp past
    obtain rfl : key = job := Option.some.inj about
    exact ⟨batch, mem_journal.mp reported⟩
  · rintro ⟨batch, member⟩
    have past := mem_history.mpr ⟨mem_journal.mpr member, rfl⟩
    exact List.mem_map.mpr ⟨_, List.mem_filterMap.mpr ⟨_, past, rfl⟩, rfl⟩

/-- Signals before the first chunk. -/
def newSignals : Signals := ⟨.create .standard "chunks" .empty, ⟨1, .ofSeconds 60, []⟩⟩

/-- The only chunk of a job. -/
def onlyChunk : ChunkEvent := ⟨.zero, "0", 1, some 1, .null⟩

/-- The only record of that chunk. -/
def onlyRecord : RecordProcessed := ⟨.zero, "0", "instance", none, "create", .completed, none⟩

/-- The row is written before the record leaves the pipeline. -/
def orderly : List Action :=
  [.chunk onlyChunk, .hand 0, .progress (.drive .start) rfl, .progress (.drive .park) rfl,
    .progress (.drive (.call .zero)) rfl, .progress (.write .zero) rfl,
    .progress (.drive (.collect .zero)) rfl, .record onlyRecord .epoch, .hand 1,
    .journal (.drive .start) rfl, .journal (.drive .park) rfl,
    .journal (.drive (.call .zero)) rfl, .journal (.write .zero) rfl,
    .journal (.drive (.collect .zero)) rfl]

theorem orderly_keeps_record :
    ∃ office reports,
      run? (fun _ => 1) (opened newSignals .empty) orderly = some (office, reports) ∧
        Admitted newSignals .zero orderly ∧ .zero ∉ office.journal.table.dropped ∧
          ∃ stored ∈ office.store.journal, stored.id = (onlyRecord.journalRecord .epoch).id := by
  have outcome : ((run? (fun _ => 1) (opened newSignals .empty) orderly).map fun final =>
      (tallies .zero final.2, final.1.inHand.filterMap (batchOf? .zero),
        final.1.journal.table.states.contains .zero)) = some ([.ok], [], false) := by
    decide +kernel
  obtain ⟨⟨office, reports⟩, run, checks⟩ := Option.map_eq_some_iff.mp outcome
  simp only [Prod.mk.injEq] at checks
  obtain ⟨answers, empty, absent⟩ := checks
  have idle := Option.not_isSome_iff_eq_none.mp (Bool.eq_false_iff.mp absent)
  have admitted : Admitted newSignals .zero orderly :=
    ⟨[], onlyChunk, orderly.tail, rfl, rfl, by simp, by decide⟩
  obtain ⟨refusals, entries, _⟩ := journal_needs_row run admitted
  have allowed : ∀ batch, .journal (.answered .zero batch .rejected) ∉ reports := by
    intro batch member
    have answer := mem_tallies.mpr ⟨batch, member⟩
    rw [answers] at answer
    simp at answer
  obtain ⟨accepted, complete⟩ := entries (refusals.mp allowed) (by decide)
  exact ⟨office, reports, run, admitted, accepted,
    complete empty idle onlyRecord .epoch (by simp [orderly]) rfl⟩

/-- The row is held up by an outage that is over when the record leaves the pipeline. -/
def overtaken : List Action :=
  [.chunk onlyChunk, .hand 0, .progress (.drive .start) rfl, .progress (.drive .park) rfl,
    .outage true, .progress (.drive (.call .zero)) rfl, .progress (.write .zero) rfl,
    .outage false, .record onlyRecord .epoch, .hand 0, .hand 0,
    .journal (.drive .start) rfl, .journal (.drive .park) rfl,
    .journal (.drive (.call .zero)) rfl, .journal (.write .zero) rfl,
    .journal (.drive (.collect .zero)) rfl,
    .progress (.drive (.retry .zero)) rfl, .progress (.drive (.call .zero)) rfl,
    .progress (.write .zero) rfl, .progress (.drive (.collect .zero)) rfl,
    .progress (.drive .start) rfl, .progress (.drive .park) rfl,
    .progress (.drive (.call .zero)) rfl, .progress (.write .zero) rfl,
    .progress (.drive (.collect .zero)) rfl]

/-- An admitted job loses its record for good, although its row is there in the end. -/
theorem overtaken_loses_record :
    ∃ office reports,
      run? (fun _ => 1) (opened newSignals .empty) overtaken = some (office, reports) ∧
        Admitted newSignals .zero overtaken ∧
        (∀ action ∈ overtaken, action.shutdown? = none) ∧
        (∃ batch, .journal (.answered .zero batch .rejected) ∈ reports) ∧
        .zero ∈ office.journal.table.dropped ∧ office.inHand.length = 0 ∧
        office.progress.table.states.get? .zero = none ∧
        office.journal.table.states.get? .zero = none ∧
        .record onlyRecord .epoch ∈ overtaken ∧ office.store.journal = [] ∧
        office.store.progress.get? .zero ≠ none := by
  have outcome : ((run? (fun _ => 1) (opened newSignals .empty) overtaken).map fun final =>
      (tallies .zero final.2, final.1.inHand.length, final.1.progress.table.states.contains .zero,
        final.1.journal.table.states.contains .zero,
        [final.1.journal.table.dropped.contains .zero, final.1.store.journal.isEmpty,
          final.1.store.progress.contains .zero])) =
      some ([.rejected], 0, false, false, [true, true, true]) := by
    decide +kernel
  obtain ⟨⟨office, reports⟩, run, checks⟩ := Option.map_eq_some_iff.mp outcome
  simp only [Prod.mk.injEq, List.cons.injEq] at checks
  obtain ⟨answers, inHand, progress, journal, dropped, empty, row, _⟩ := checks
  have refused : ∃ batch, .journal (.answered .zero batch .rejected) ∈ reports :=
    mem_tallies.mp (answers ▸ List.mem_singleton_self _)
  refine ⟨office, reports, run, ?_, by decide, refused, by simpa using dropped, inHand, ?_, ?_,
    by simp [overtaken], by simpa using empty, ?_⟩
  · exact ⟨[], onlyChunk, overtaken.tail, rfl, rfl, by simp, by decide⟩
  · exact Option.not_isSome_iff_eq_none.mp (Bool.eq_false_iff.mp progress)
  · exact Option.not_isSome_iff_eq_none.mp (Bool.eq_false_iff.mp journal)
  · exact Option.isSome_iff_ne_none.mp row

end Office
end Intake
