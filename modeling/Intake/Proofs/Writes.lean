import Intake.Proofs.Progress.Persistence

/-!
# Calls that reach the store

A call writes its mutation and is answered with what the store said.  `Store.ProgressWrite` and
`Store.JournalWrite` list what can come of it.
-/

namespace Intake

open Dispatch

namespace Store

/-- The answer of a call, unless its write was a crash. -/
def answered {Value : Type} : StoreResult Value × Store → Option (Except FlushFailure Unit × Store)
  | (.ok _, store) => some (.ok (), store)
  | (.failed failure, store) => some (.error (.ofStore failure), store)
  | (.overflow _, _) => none

/-- Writes progress. -/
def progressWriter : Writer Uuid ProgressMutation Store := fun store job mutation =>
  answered (store.persistProgress job mutation)

/-- Writes journal records. -/
def journalWriter : Writer Uuid JournalBatch Store := fun store _ batch =>
  answered (store.persistJournal batch)

/-- A call that finds the store away is worth another attempt. -/
@[simp]
theorem outage_retryable : (FlushFailure.ofStore outage).isRetryable = true := rfl

/-- What comes of a call that writes progress of a job. -/
inductive ProgressWrite (store : Store) (job : Uuid) (mutation : ProgressMutation) :
    Except FlushFailure Unit → Store → Prop where
  | away (absent : store.unavailable = true) :
      ProgressWrite store job mutation (.error (.ofStore outage)) store
  | unknown {after : Store} (present : store.unavailable = false)
      (missing : store.progress.get? job = none) (creates : mutation.createsJob = false)
      (progress : after.progress = store.progress) (journal : after.journal = store.journal) :
      ProgressWrite store job mutation (.error (.ofStore (.notFound job))) after
  | done {after : Store} (present : store.unavailable = false)
      (known : store.progress.get? job = none → mutation.createsJob = true)
      (progress : ∀ other, after.progress.get? other =
        if job = other then some (mutation.act (store.origin job)) else store.progress.get? other)
      (journal : after.journal = store.journal) :
      ProgressWrite store job mutation (.ok ()) after

namespace ProgressWrite

variable {store after : Store} {job : Uuid} {mutation : ProgressMutation}
  {result : Except FlushFailure Unit}

/-- What comes of writing a mutation of a job whose deltas are for that job. -/
theorem of_writer (own : mutation.IsFor job)
    (written : store.progressWriter job mutation = some (result, after)) :
    ProgressWrite store job mutation result after := by
  have outcome := Persisted.of_persist store own
  unfold progressWriter at written
  generalize store.persistProgress job mutation = persisted at outcome written
  obtain ⟨answer, left⟩ := persisted
  dsimp only at outcome
  cases outcome with
  | away absent =>
      obtain ⟨rfl, rfl⟩ := Prod.mk.inj (Option.some.inj written)
      exact .away absent
  | unknown present missing creates same =>
      obtain ⟨rfl, rfl⟩ := Prod.mk.inj (Option.some.inj written)
      exact .unknown present missing creates same.progress same.journal
  | crashed | torn => simp [answered] at written
  | written present accepts applied whole =>
      rename_i row
      rcases reviewed_cases row with ⟨notices, answer, _⟩ | ⟨cause, _, answer, _⟩
      case inr => simp [answer, answered] at written
      rw [answer] at written
      obtain ⟨rfl, rfl⟩ := Prod.mk.inj (Option.some.inj written)
      refine .done present accepts (fun other => ?_) whole.journal
      rw [whole.get?_eq, ProgressMutation.act_of_apply applied]

/-- Writing progress leaves the journal alone. -/
theorem journal_of_writer (written : store.progressWriter job mutation = some (result, after)) :
    after.journal = store.journal := by
  have kept := store.journal_persistProgress job mutation
  unfold progressWriter at written
  generalize store.persistProgress job mutation = persisted at kept written
  obtain ⟨answer, left⟩ := persisted
  cases answer with
  | ok | failed =>
      obtain ⟨rfl, rfl⟩ := Prod.mk.inj (Option.some.inj written)
      exact kept
  | overflow => simp [answered] at written

end ProgressWrite

/-! ## The journal -/

/-- What comes of a call that writes a batch of records. -/
inductive JournalWrite (store : Store) (batch : JournalBatch) :
    Except FlushFailure Unit → Store → Prop where
  | away (absent : store.unavailable = true) :
      JournalWrite store batch (.error (.ofStore outage)) store
  | unknown {record : JournalRecord} {after : Store} (present : store.unavailable = false)
      (member : record ∈ batch.records) (missing : store.progress.get? record.job = none)
      (progress : after.progress = store.progress) (journal : after.journal = store.journal) :
      JournalWrite store batch (.error (.ofStore (unknownJob record))) after
  | done {after : Store} (present : store.unavailable = false)
      (known : ∀ record ∈ batch.records, store.progress.get? record.job ≠ none)
      (progress : after.progress = store.progress)
      (journal : after.journal = batch.records.foldl addRecord store.journal) :
      JournalWrite store batch (.ok ()) after

theorem JournalWrite.of_writer {store after : Store} {job : Uuid} {batch : JournalBatch}
    {result : Except FlushFailure Unit}
    (written : store.journalWriter job batch = some (result, after)) :
    JournalWrite store batch result after := by
  unfold journalWriter persistJournal saveJournal at written
  cases absent : store.unavailable with
  | true =>
      simp only [absent, if_true, answered, Option.some.injEq, Prod.mk.injEq] at written
      obtain ⟨rfl, rfl⟩ := written
      exact .away absent
  | false =>
      simp only [absent, Bool.false_eq_true, if_false] at written
      cases found : batch.records.find? fun record => !store.progress.contains record.job with
      | some record =>
          simp only [found, answered, Option.some.injEq, Prod.mk.injEq] at written
          obtain ⟨rfl, rfl⟩ := written
          have missing : store.progress.get? record.job = none := by
            simpa [KeyMap.contains] using List.find?_some found
          exact .unknown absent (List.mem_of_find?_eq_some found) missing rfl rfl
      | none =>
          simp only [found, answered, Option.some.injEq, Prod.mk.injEq] at written
          obtain ⟨rfl, rfl⟩ := written
          refine .done absent ?_ rfl rfl
          intro record member missing
          have known := List.find?_eq_none.mp found record member
          simp [KeyMap.contains, missing] at known

/-- Writing the journal leaves progress alone. -/
theorem JournalWrite.progress_eq {store after : Store} {batch : JournalBatch}
    {result : Except FlushFailure Unit} (outcome : JournalWrite store batch result after) :
    after.progress = store.progress := by
  cases outcome with
  | away => rfl
  | unknown _ _ _ progress | done _ _ progress => exact progress

/-- A refused batch is not worth another attempt. -/
theorem unknownJob_final (record : JournalRecord) :
    (FlushFailure.ofStore (unknownJob record)).isRetryable = false := rfl

theorem mem_addRecord_of_mem {journal : List JournalRecord} {record stored : JournalRecord}
    (member : stored ∈ journal) : stored ∈ addRecord journal record := by
  unfold addRecord
  split
  · exact member
  · exact List.mem_append_left _ member

theorem exists_addRecord (journal : List JournalRecord) (record : JournalRecord) :
    ∃ stored ∈ addRecord journal record, stored.id = record.id := by
  unfold addRecord
  split
  · rename_i known
    obtain ⟨stored, member, same⟩ := List.any_eq_true.mp known
    exact ⟨stored, member, by simpa using same⟩
  · exact ⟨record, by simp, rfl⟩

/-- Adding records keeps those that are there. -/
theorem mem_foldl_addRecord {journal records : List JournalRecord} {stored : JournalRecord}
    (member : stored ∈ journal) : stored ∈ records.foldl addRecord journal := by
  induction records generalizing journal with
  | nil => exact member
  | cons record records ih => exact ih (mem_addRecord_of_mem member)

/-- Nothing else is added. -/
theorem mem_of_mem_foldl_addRecord {journal records : List JournalRecord} {stored : JournalRecord}
    (member : stored ∈ records.foldl addRecord journal) : stored ∈ journal ∨ stored ∈ records := by
  induction records generalizing journal with
  | nil => exact .inl member
  | cons record records ih =>
      rcases ih member with early | later
      · unfold addRecord at early
        split at early
        · exact .inl early
        · rcases List.mem_append.mp early with before | now
          · exact .inl before
          · rw [List.mem_singleton.mp now]
            exact .inr List.mem_cons_self
      · exact .inr (List.mem_cons_of_mem _ later)

/-- After records were added each of them has an entry. -/
theorem exists_foldl_addRecord {journal records : List JournalRecord} {record : JournalRecord}
    (member : record ∈ records) :
    ∃ stored ∈ records.foldl addRecord journal, stored.id = record.id := by
  induction records generalizing journal with
  | nil => simp at member
  | cons first records ih =>
      rw [List.foldl_cons]
      rcases List.mem_cons.mp member with rfl | later
      · obtain ⟨stored, among, same⟩ := exists_addRecord journal record
        exact ⟨stored, mem_foldl_addRecord among, same⟩
      · exact ih later

end Store
end Intake
