import Intake.Proofs.Entries
import Intake.Proofs.Progress.Exact

/-!
# The journal is exact

The accumulator of the journal submits the records of each job as they come.  Batches are joined by
concatenation and the store skips what it has, so it does not matter where the dispatcher cuts the
stream into flushes or how often a flush is repeated: once a job is idle, the journal has the records
that were submitted for it, in order, each identifier once.
-/

namespace Intake

open Dispatch

namespace Store

/-- Adding records appends those that are new, the first of each identifier. -/
theorem foldl_addRecord (journal records : List JournalRecord) :
    records.foldl addRecord journal =
      journal ++ (records.filter fun record => !journal.any (·.id == record.id)).eraseDupsBy
        (·.id == ·.id) := by
  induction records generalizing journal with
  | nil => simp [List.eraseDupsBy, List.eraseDupsBy.loop]
  | cons record records ih =>
      rw [List.foldl_cons, ih, addRecord]
      cases known : journal.any (·.id == record.id) with
      | true => simp [known]
      | false =>
          have news : (records.filter fun next => !(journal ++ [record]).any (·.id == next.id)) =
              (records.filter fun next => !journal.any (·.id == next.id)).filter
                fun next => (next.id == record.id) = false := by
            rw [List.filter_filter]
            apply List.filter_congr
            intro next _
            rw [List.any_append, List.any_cons, List.any_nil, Bool.or_false, Bool.not_or,
              Bool.and_comm, BEq.comm, Bool.decide_eq_false]
          rw [if_neg Bool.false_ne_true, news, List.filter_cons_of_pos (by rw [known]; rfl),
            List.eraseDupsBy_cons, List.append_assoc]
          rfl

/-- Records of one job are added to the entries of that job, if no other job has their
identifiers. -/
theorem filter_foldl_addRecord {journal records : List JournalRecord} {job : Uuid}
    (own : ∀ record ∈ records, record.job = job)
    (apart : ∀ stored ∈ journal, ∀ record ∈ records, stored.id = record.id → stored.job = job) :
    (records.foldl addRecord journal).filter (·.job = job) =
      records.foldl addRecord (journal.filter (·.job = job)) := by
  induction records generalizing journal with
  | nil => rfl
  | cons record records ih =>
      obtain ⟨mine, own⟩ := List.forall_mem_cons.mp own
      have seen : (journal.filter (·.job = job)).any (·.id == record.id) =
          journal.any (·.id == record.id) := by
        rw [List.any_filter, Bool.eq_iff_iff, List.any_eq_true, List.any_eq_true]
        refine exists_congr fun stored => and_congr_right fun member => ?_
        simpa using apart stored member record List.mem_cons_self
      have added : (addRecord journal record).filter (·.job = job) =
          addRecord (journal.filter (·.job = job)) record := by
        simp only [addRecord, seen]
        split
        · rfl
        · simp [mine]
      rw [List.foldl_cons, List.foldl_cons, ← added]
      apply ih own
      intro stored member other among same
      change stored ∈ [record].foldl addRecord journal at member
      rcases mem_of_mem_foldl_addRecord member with before | now
      · exact apart stored before other (List.mem_cons_of_mem _ among) same
      · rw [List.mem_singleton.mp now, mine]

/-- Records of other jobs are no entries of a job. -/
theorem filter_foldl_addRecord_of_ne {journal records : List JournalRecord} {job : Uuid}
    (others : ∀ record ∈ records, record.job ≠ job) :
    (records.foldl addRecord journal).filter (·.job = job) = journal.filter (·.job = job) := by
  induction records generalizing journal with
  | nil => rfl
  | cons record records ih =>
      obtain ⟨other, others⟩ := List.forall_mem_cons.mp others
      rw [List.foldl_cons, ih others, addRecord]
      split
      · rfl
      · simp [other]

end Store

/-- The entries after a batch. -/
def JournalBatch.enter (journal : List JournalRecord) (batch : JournalBatch) :
    List JournalRecord :=
  batch.records.foldl Store.addRecord journal

theorem JournalBatch.enter_merge (journal : List JournalRecord) (earlier later : JournalBatch) :
    enter journal (Mergeable.merge earlier later) = enter (enter journal earlier) later :=
  List.foldl_append ..

section Service

variable {limit : Nat} {start : Store} {service : Service Uuid JournalBatch Store}
  {actions : List (Service.Action Uuid JournalBatch Store)}
  {events : List (Event Uuid JournalBatch)} {job : Uuid}

/-- A record was in the journal at the start, or in a batch that is submitted. -/
def Brought (start : Store) (actions : List (Service.Action Uuid JournalBatch Store))
    (record : JournalRecord) : Prop :=
  record ∈ start.journal ∨
    ∃ job, ∃ batch ∈ actions.filterMap (Service.Action.offer? job), record ∈ batch.records

/-- What is assumed of those who submit batches, and of others who use the store. -/
structure Orderly (start : Store) (actions : List (Service.Action Uuid JournalBatch Store)) :
    Prop where
  /-- Every batch is submitted for the job of its records. -/
  own : ∀ job, ∀ batch ∈ actions.filterMap (Service.Action.offer? job),
    ∀ record ∈ batch.records, record.job = job
  /-- Records of different jobs have different identifiers. -/
  apart : ∀ first second, Brought start actions first → Brought start actions second →
    first.id = second.id → first.job = second.job
  alone : LeavesJournal actions

theorem Brought.append {record : JournalRecord} (brought : Brought start actions record)
    (more : List (Service.Action Uuid JournalBatch Store)) :
    Brought start (actions ++ more) record := by
  rcases brought with before | ⟨job, batch, member, among⟩
  · exact .inl before
  · refine .inr ⟨job, batch, ?_, among⟩
    rw [List.filterMap_append]
    exact List.mem_append_left _ member

theorem Orderly.front {more : List (Service.Action Uuid JournalBatch Store)}
    (orderly : Orderly start (actions ++ more)) : Orderly start actions where
  own job batch member := by
    apply orderly.own job batch
    rw [List.filterMap_append]
    exact List.mem_append_left _ member
  apart first second early late := orderly.apart first second (early.append more) (late.append more)
  alone update member := orderly.alone update (List.mem_append_left _ member)

/-- A batch holds records of the job that were submitted. -/
def Brings (start : Store) (actions : List (Service.Action Uuid JournalBatch Store)) (job : Uuid)
    (batch : JournalBatch) : Prop :=
  ∀ record ∈ batch.records, record.job = job ∧ Brought start actions record

theorem brings_merge (earlier later : JournalBatch) (first : Brings start actions job earlier)
    (second : Brings start actions job later) :
    Brings start actions job (Mergeable.merge earlier later) := by
  intro record member
  rcases List.mem_append.mp member with early | late
  · exact first record early
  · exact second record late

/-- A call that reaches the store writes records of its job that were submitted. -/
theorem brings_of_call (orderly : Orderly start actions)
    (run : Service.run? Store.journalWriter limit ⟨Drain.initial, start⟩ actions =
      some (service, events)) {batch : JournalBatch} {failures : Nat}
    (held : service.drain.flush? job = some ⟨job, batch, failures, .calling⟩) :
    Brings start actions job batch := by
  refine Service.call_of_run brings_merge run ?_ held
  intro batch member record among
  exact ⟨orderly.own job batch member record among, .inr ⟨job, batch, member, among⟩⟩

/-- Nothing else gets into the journal. -/
theorem brought_of_entry (orderly : Orderly start actions)
    (run : Service.run? Store.journalWriter limit ⟨Drain.initial, start⟩ actions =
      some (service, events)) :
    ∀ stored ∈ service.world.journal, Brought start actions stored := by
  refine runOf_induction (motive := fun actions (service : Service _ _ Store) _ =>
    Orderly start actions → ∀ stored ∈ service.world.journal, Brought start actions stored)
    ?_ ?_ run orderly
  · exact fun _ stored member => .inl member
  · intro actions service events action next _ front held taken orderly stored member
    have before := held orderly.front
    cases Service.Step.of_step? taken with
    | drive => exact (before stored member).append _
    | write calling written answered =>
        have called := brings_of_call orderly.front front calling
        cases Store.JournalWrite.of_writer written with
        | away => exact (before stored member).append _
        | unknown _ _ _ _ journal => exact (before stored (journal ▸ member)).append _
        | done _ _ _ journal =>
            dsimp only at member
            rw [journal] at member
            rcases Store.mem_of_mem_foldl_addRecord member with early | now
            · exact (before stored early).append _
            · exact (called stored now).2.append _
    | change =>
        rename_i update
        rw [orderly.alone update (by simp) service.world] at member
        exact (before stored member).append _

/-- The entries of a job are those of its batches that were persisted. -/
theorem journal_of_run (orderly : Orderly start actions)
    (run : Service.run? Store.journalWriter limit ⟨Drain.initial, start⟩ actions =
      some (service, events)) :
    service.world.journal.filter (·.job = job) =
      ((history job events).filterMap Event.persisted?).foldl JournalBatch.enter
        (start.journal.filter (·.job = job)) := by
  refine runOf_induction (motive := fun actions (service : Service _ _ Store) events =>
    Orderly start actions → service.world.journal.filter (·.job = job) =
      ((history job events).filterMap Event.persisted?).foldl JournalBatch.enter
        (start.journal.filter (·.job = job))) ?_ ?_ run orderly
  · exact fun _ => rfl
  · intro actions service events action next now front held taken orderly
    have before := held orderly.front
    rw [history_append, List.filterMap_append]
    cases Service.Step.of_step? taken with
    | drive free taken =>
        have failed := (Drain.Step.of_step? taken).tally_of_free free job
        rw [persisted_eq_nil fun batch => (failed batch).1, List.append_nil]
        exact before
    | write calling written answered =>
        rename_i key batch failures result after next
        have brings := brings_of_call orderly.front front calling
        rw [(Drain.Step.of_step? answered).persisted_of_answer calling job]
        dsimp only
        cases Store.JournalWrite.of_writer written with
        | away => simpa using before
        | unknown _ _ _ _ journal => simpa [journal] using before
        | done _ _ _ journal =>
            rw [journal]
            -- Another job has none of these identifiers, so it cannot keep an entry out.
            by_cases same : key = job
            · subst same
              have apart : ∀ stored ∈ service.world.journal, ∀ record ∈ batch.records,
                  stored.id = record.id → stored.job = key := by
                intro stored member record among ids
                have entry := brought_of_entry orderly.front front stored member
                rw [orderly.front.apart stored record entry (brings record among).2 ids]
                exact (brings record among).1
              rw [Store.filter_foldl_addRecord (fun record among => (brings record among).1) apart,
                before]
              simp [List.foldl_append, JournalBatch.enter]
            · have others : ∀ record ∈ batch.records, record.job ≠ job :=
                fun record among mine => same ((brings record among).1.symm.trans mine)
              rw [Store.filter_foldl_addRecord_of_ne others, before]
              simp [same]
    | change =>
        rename_i update
        rw [orderly.alone update (by simp) service.world, before]
        simp [history]

/-- A job has its row when something is submitted for it for the first time, and keeps it. -/
structure RowReady (limit : Nat) (start : Store) (job : Uuid)
    (actions : List (Service.Action Uuid JournalBatch Store)) : Prop where
  first : ∀ front action back middle earlier, actions = front ++ action :: back →
    action.offer? job ≠ none → front.filterMap (Service.Action.offer? job) = [] →
      Service.run? Store.journalWriter limit ⟨Drain.initial, start⟩ front =
        some (middle, earlier) → middle.world.progress.get? job ≠ none
  kept : ∀ update, .change update ∈ actions →
    ∀ store : Store, store.progress.get? job ≠ none → (update store).progress.get? job ≠ none

theorem RowReady.front {more : List (Service.Action Uuid JournalBatch Store)}
    (ready : RowReady limit start job (actions ++ more)) : RowReady limit start job actions where
  first front action back middle earlier split :=
    ready.first front action (back ++ more) middle earlier (by rw [split, List.append_assoc]; rfl)
  kept update member := ready.kept update (List.mem_append_left _ member)

/-- A job for which something was submitted has its row. -/
theorem row_of_offered (ready : RowReady limit start job actions)
    (run : Service.run? Store.journalWriter limit ⟨Drain.initial, start⟩ actions =
      some (service, events))
    (offered : actions.filterMap (Service.Action.offer? job) ≠ []) :
    service.world.progress.get? job ≠ none := by
  refine runOf_induction (motive := fun actions (service : Service _ _ Store) _ =>
    RowReady limit start job actions → actions.filterMap (Service.Action.offer? job) ≠ [] →
      service.world.progress.get? job ≠ none) ?_ ?_ run ready offered
  · exact fun _ none => absurd rfl none
  · intro actions service events action next now front held taken ready offered
    have row : action.offer? job ≠ none ∨ actions.filterMap (Service.Action.offer? job) ≠ [] →
        service.world.progress.get? job ≠ none := by
      intro either
      by_cases none : actions.filterMap (Service.Action.offer? job) = []
      · exact ready.first actions action [] service events rfl (either.resolve_right (· none)) none
          front
      · exact held ready.front none
    have either : action.offer? job ≠ none ∨
        actions.filterMap (Service.Action.offer? job) ≠ [] := by
      rw [List.filterMap_append] at offered
      cases submits : action.offer? job with
      | some => exact .inl (by simp)
      | none => exact .inr (by simpa [submits] using offered)
    cases Service.Step.of_step? taken with
    | drive => exact row either
    | write calling written =>
        dsimp only
        rw [(Store.JournalWrite.of_writer written).progress_eq]
        exact row either
    | change =>
        rename_i update
        exact ready.kept update (by simp) service.world (row either)

/-- No batch of a job is refused that has its row. -/
theorem allowed_of_ready (orderly : Orderly start actions) (ready : RowReady limit start job actions)
    (run : Service.run? Store.journalWriter limit ⟨Drain.initial, start⟩ actions =
      some (service, events)) : ∀ batch, .answered job batch .rejected ∉ events := by
  intro batch member
  obtain ⟨split, _, event, among, refused, rfl⟩ :=
    exists_first (p := fun event => ∃ batch, event = .answered job batch .rejected) run
      ⟨_, member, batch, rfl⟩
  obtain ⟨front, action, back, middle, earlier, next, now, later, rfl, rfl, before, taken, _⟩ := split
  obtain ⟨_, _, failures, failure, world, held, written, final⟩ :=
    (Service.Step.of_step? taken).of_rejected among
  have offered : front.filterMap (Service.Action.offer? job) ≠ [] :=
    Service.call_of_run (fun _ _ nonempty _ => nonempty) before
      (fun _ member => List.ne_nil_of_mem member) held
  have row := row_of_offered ready.front before offered
  cases Store.JournalWrite.of_writer written with
  | away => simp at final
  | unknown _ inside missing =>
      rw [(brings_of_call orderly.front before held _ inside).1] at missing
      exact row missing

/-- The entries of an idle job are the records that were submitted for it, the first of each
identifier, after those it had. -/
theorem journal_of_idle (orderly : Orderly start actions) (ready : RowReady limit start job actions)
    (going : .drive .cancel ∉ actions)
    (run : Service.run? Store.journalWriter limit ⟨Drain.initial, start⟩ actions =
      some (service, events)) (idle : service.drain.table.states.get? job = none) :
    service.world.journal.filter (·.job = job) =
      (actions.filterMap (Service.Action.offer? job)).foldl JournalBatch.enter
        (start.journal.filter (·.job = job)) := by
  have running := Service.running_of_run run going
  obtain ⟨safe, taken⟩ := Service.safe_of_run run (allowed_of_ready orderly ready run)
    (running.abandoned job) (running.refused job)
  obtain ⟨ledger, accounts⟩ := Service.ledger_of_run run job
  rw [Drain.standing_of_absent idle] at accounts
  obtain ⟨blocks, persisted, offered⟩ := accounts.replays safe
  have calls : (history job events).filterMap Event.persisted? = blocks.map Block.merged := by
    simpa [Standing.flight?, Standing.queued?] using persisted
  rw [journal_of_run orderly run, calls, ← taken, offered,
    Block.replay JournalBatch.enter JournalBatch.enter_merge]

end Service

/-! ## Runs of the accumulator -/

/-- What can happen around the accumulator of the journal. -/
inductive Journaling where
  /-- A record is submitted. -/
  | record (entry : JournalRecord)
  /-- The dispatcher goes on. -/
  | drive (action : Action Uuid JournalBatch) (inner : isInner action = true)
  /-- The call that is under way for a job reaches the store and returns. -/
  | write (job : Uuid)
  /-- The store goes away or comes back, or someone else writes to it. -/
  | change (update : Store → Store)

namespace Journaling

/-- What happens to the dispatcher and its store. -/
def toService : Journaling → Service.Action Uuid JournalBatch Store
  | record entry => .drive (.submit entry.job ⟨[entry]⟩)
  | drive action _ => .drive action
  | write job => .write job
  | change update => .change update

/-- The record that is submitted for a job. -/
def record? (job : Uuid) : Journaling → Option JournalRecord
  | record entry => if entry.job = job then some entry else none
  | _ => none

theorem offer?_toService (job : Uuid) (happening : Journaling) :
    happening.toService.offer? job = (happening.record? job).map fun record => ⟨[record]⟩ := by
  cases happening with
  | record entry =>
      by_cases same : entry.job = job
      · simp [toService, record?, Service.Action.offer?, Action.offer?, same]
      · simp [toService, record?, Service.Action.offer?, Action.offer?, same]
  | drive action inner =>
      cases action with
      | submit => simp [isInner] at inner
      | _ => rfl
  | write | change => rfl

theorem offers_toService (job : Uuid) (entries : List Journaling) :
    (entries.map toService).filterMap (Service.Action.offer? job) =
      (entries.filterMap (record? job)).map fun record => ⟨[record]⟩ := by
  rw [List.filterMap_map, List.map_filterMap]
  exact List.filterMap_congr fun happening _ => offer?_toService job happening

theorem mem_record {job : Uuid} {entries : List Journaling} {record : JournalRecord}
    (member : record ∈ entries.filterMap (record? job)) :
    record.job = job ∧ .record record ∈ entries := by
  obtain ⟨entry, among, given⟩ := List.mem_filterMap.mp member
  cases entry with
  | record other =>
      obtain ⟨same, rfl⟩ : other.job = job ∧ other = record := by simpa [record?] using given
      exact ⟨same, among⟩
  | drive | write | change => simp [record?] at given

theorem mem_change {entries : List Journaling} {update : Store → Store}
    (member : .change update ∈ entries.map toService) : .change update ∈ entries := by
  obtain ⟨entry, among, same⟩ := List.mem_map.mp member
  cases entry with
  | change own =>
      obtain rfl := Service.Action.change.inj same
      exact among
  | record | drive | write => simp [toService] at same

theorem cancel_not_mem (entries : List Journaling) : .drive .cancel ∉ entries.map toService := by
  intro member
  obtain ⟨entry, _, same⟩ := List.mem_map.mp member
  cases entry with
  | drive action inner =>
      obtain rfl := Service.Action.drive.inj same
      simp [isInner] at inner
  | record | write | change => simp [toService] at same

/-- A batch that is submitted for a job holds a record of that job. -/
theorem mem_offer {job : Uuid} {entries : List Journaling} {batch : JournalBatch}
    (member : batch ∈ (entries.map toService).filterMap (Service.Action.offer? job))
    {record : JournalRecord} (among : record ∈ batch.records) :
    record.job = job ∧ .record record ∈ entries := by
  rw [offers_toService] at member
  obtain ⟨single, offered, rfl⟩ := List.mem_map.mp member
  rw [List.mem_singleton.mp among]
  exact mem_record offered

end Journaling

/-- A record was in the journal at the start, or is submitted. -/
def Journaled (start : Store) (entries : List Journaling) (record : JournalRecord) : Prop :=
  record ∈ start.journal ∨ .record record ∈ entries

namespace Journaling

variable {limit : Nat} {start : Store} {entries : List Journaling} {job : Uuid}

theorem journaled_of_brought {record : JournalRecord}
    (brought : Brought start (entries.map toService) record) : Journaled start entries record := by
  rcases brought with before | ⟨job, batch, member, among⟩
  · exact .inl before
  · exact .inr (mem_offer member among).2

theorem orderly
    (apart : ∀ first second, Journaled start entries first → Journaled start entries second →
      first.id = second.id → first.job = second.job)
    (alone : ∀ update, .change update ∈ entries →
      ∀ store : Store, (update store).journal = store.journal) :
    Orderly start (entries.map toService) where
  own _ _ member _ among := (mem_offer member among).1
  apart first second early late :=
    apart first second (journaled_of_brought early) (journaled_of_brought late)
  alone update member := alone update (mem_change member)

theorem rowReady
    (kept : ∀ update, .change update ∈ entries → ∀ store : Store,
      store.progress.get? job ≠ none → (update store).progress.get? job ≠ none)
    (known : ∀ front record back middle earlier, entries = front ++ .record record :: back →
      record.job = job → front.filterMap (record? job) = [] →
        Service.run? Store.journalWriter limit ⟨Drain.initial, start⟩ (front.map toService) =
          some (middle, earlier) → middle.world.progress.get? job ≠ none) :
    RowReady limit start job (entries.map toService) where
  first := by
    intro front action back middle earlier split offered none before
    obtain ⟨early, rest, rfl, rfl, later⟩ := List.map_eq_append_iff.mp split
    obtain ⟨entry, late, rfl, rfl, _⟩ := List.map_eq_cons_iff.mp later
    rw [offers_toService, List.map_eq_nil_iff] at none
    rw [offer?_toService] at offered
    cases entry with
    | record record =>
        have same : record.job = job := by
          by_contra other
          simp [record?, other] at offered
        exact known early record late middle earlier rfl same none before
    | drive | write | change => simp [record?] at offered
  kept update member := kept update (mem_change member)

end Journaling

/-- Whenever a job is idle that had its row before its first record, the journal has the records
that were submitted for it, in order, the first of each identifier. -/
theorem journal_is_exact {limit : Nat} {start : Store} {entries : List Journaling}
    {service : Service Uuid JournalBatch Store} {events : List (Event Uuid JournalBatch)}
    {job : Uuid}
    (run : Service.run? Store.journalWriter limit ⟨Drain.initial, start⟩
      (entries.map Journaling.toService) = some (service, events))
    (alone : ∀ update, .change update ∈ entries → ∀ store : Store,
      (update store).journal = store.journal ∧
        (store.progress.get? job ≠ none → (update store).progress.get? job ≠ none))
    (known : ∀ front record back middle earlier, entries = front ++ .record record :: back →
      record.job = job → front.filterMap (Journaling.record? job) = [] →
        Service.run? Store.journalWriter limit ⟨Drain.initial, start⟩
          (front.map Journaling.toService) = some (middle, earlier) →
            middle.world.progress.get? job ≠ none)
    (apart : ∀ first second, Journaled start entries first → Journaled start entries second →
      first.id = second.id → first.job = second.job)
    (new : ∀ stored ∈ start.journal, stored.job ≠ job)
    (idle : service.drain.table.states.get? job = none) :
    service.world.journal.filter (·.job = job) =
      (entries.filterMap (Journaling.record? job)).eraseDupsBy (·.id == ·.id) := by
  have orderly := Journaling.orderly apart fun update member store => (alone update member store).1
  have ready := Journaling.rowReady (fun update member store => (alone update member store).2) known
  have empty : start.journal.filter (·.job = job) = [] :=
    List.filter_eq_nil_iff.mpr fun stored member => by simpa using new stored member
  rw [journal_of_idle orderly ready (Journaling.cancel_not_mem entries) run idle, empty,
    Journaling.offers_toService, List.foldl_map]
  change (entries.filterMap (Journaling.record? job)).foldl Store.addRecord [] = _
  rw [Store.foldl_addRecord]
  simp

/-- A record of one job. -/
def numbered (number : UInt8) (source : String) : JournalRecord :=
  ⟨⟨number :: List.replicate 15 0, by simp⟩, .zero, source, "instance", none, "create",
    .completed, none, .epoch⟩

/-- A record comes again in the same batch, and once more after an outage. -/
def repeatedRecords : List Journaling :=
  [.change fun store => (store.createProgress .zero none).2, .record (numbered 1 "a"),
    .record (numbered 1 "b"), .drive .start rfl, .drive .park rfl, .drive (.call .zero) rfl,
    .change (·.setUnavailable true), .record (numbered 2 "c"), .write .zero,
    .record (numbered 1 "d"), .drive (.retry .zero) rfl, .change (·.setUnavailable false),
    .drive (.call .zero) rfl, .write .zero, .drive (.collect .zero) rfl, .drive .start rfl,
    .drive .park rfl, .drive (.call .zero) rfl, .write .zero, .drive (.collect .zero) rfl]

theorem repeatedRecords_are_journaled_once :
    ∃ service events,
      Service.run? Store.journalWriter 1 ⟨Drain.initial, Store.empty⟩
        (repeatedRecords.map Journaling.toService) = some (service, events) ∧
      service.world.journal.filter (·.job = .zero) = [numbered 1 "a", numbered 2 "c"] := by
  have outcome : ((Service.run? Store.journalWriter 1 ⟨Drain.initial, Store.empty⟩
      (repeatedRecords.map Journaling.toService)).map fun final =>
        final.1.drain.table.states.contains .zero) = some false := by decide +kernel
  obtain ⟨⟨service, events⟩, run, absent⟩ := Option.map_eq_some_iff.mp outcome
  have idle := Option.not_isSome_iff_eq_none.mp (Bool.eq_false_iff.mp absent)
  have alone : ∀ update, .change update ∈ repeatedRecords → ∀ store : Store,
      (update store).journal = store.journal ∧
        (store.progress.get? .zero ≠ none → (update store).progress.get? .zero ≠ none) := by
    intro update member store
    simp only [repeatedRecords, List.mem_cons, List.not_mem_nil, or_false, reduceCtorEq, false_or,
      Journaling.change.injEq] at member
    rcases member with rfl | rfl | rfl
    · cases away : store.unavailable <;> simp [Store.createProgress, away]
    · exact ⟨rfl, id⟩
    · exact ⟨rfl, id⟩
  have known : ∀ front record back middle earlier,
      repeatedRecords = front ++ .record record :: back → record.job = .zero →
        front.filterMap (Journaling.record? .zero) = [] →
          Service.run? Store.journalWriter 1 ⟨Drain.initial, Store.empty⟩
            (front.map Journaling.toService) = some (middle, earlier) →
              middle.world.progress.get? .zero ≠ none := by
    intro front record back middle earlier split _ none before
    rcases front with _ | ⟨first, _ | ⟨second, front⟩⟩
    · simp [repeatedRecords] at split
    · obtain ⟨rfl, _⟩ := List.cons.inj split
      obtain ⟨rfl, _⟩ := Prod.mk.inj (Option.some.inj before)
      decide
    · obtain ⟨_, rest⟩ := List.cons.inj split
      obtain ⟨rfl, _⟩ := List.cons.inj rest
      cases first <;> simp [Journaling.record?, numbered] at none
  have single : ∀ record, Journaled .empty repeatedRecords record → record.job = .zero := by
    rintro record (stored | member)
    · simp [Store.empty] at stored
    · simp only [repeatedRecords, List.mem_cons, List.not_mem_nil, or_false, reduceCtorEq, false_or,
        Journaling.record.injEq] at member
      rcases member with rfl | rfl | rfl | rfl <;> rfl
  have journal := journal_is_exact run alone known
    (fun first second early late _ => (single first early).trans (single second late).symm)
    (by simp [Store.empty]) idle
  exact ⟨service, events, run, journal.trans (by decide +kernel)⟩

end Intake
