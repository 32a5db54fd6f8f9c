import Intake.Proofs.Writes

/-!
# Entries of the journal

A dispatcher of the journal writes batches of one job each.  The journal only grows, so every record
of a batch that was written has an entry from then on.
-/

namespace Intake

open Dispatch

namespace JournalBatch

/-- A batch holds records of the job, and of no other. -/
def IsFor (job : Uuid) (batch : JournalBatch) : Prop :=
  batch.records ≠ [] ∧ ∀ record ∈ batch.records, record.job = job

theorem isFor_merge {job : Uuid} (earlier later : JournalBatch) (first : earlier.IsFor job)
    (second : later.IsFor job) : IsFor job (Mergeable.merge earlier later) := by
  refine ⟨List.append_ne_nil_of_left_ne_nil first.1 _, ?_⟩
  intro record member
  rcases List.mem_append.mp member with early | late
  · exact first.2 record early
  · exact second.2 record late

/-- A merged block holds the records of its batches. -/
theorem mem_merged {block : Block JournalBatch} {batch : JournalBatch}
    (among : batch ∈ block.mutations) {record : JournalRecord} (member : record ∈ batch.records) :
    record ∈ block.merged.records := by
  have all := Block.apply_merged (fun records (batch : JournalBatch) => records ++ batch.records)
    (fun _ _ _ => (List.append_assoc ..).symm) [] block
  rw [List.nil_append, ← List.flatMap_eq_foldl] at all
  rw [all]
  exact List.mem_flatMap.mpr ⟨batch, among, member⟩

end JournalBatch

variable {limit : Nat} {start : Store} {service : Service Uuid JournalBatch Store}
  {actions : List (Service.Action Uuid JournalBatch Store)}
  {events : List (Event Uuid JournalBatch)}

/-- Nobody else writes the journal. -/
def LeavesJournal (actions : List (Service.Action Uuid JournalBatch Store)) : Prop :=
  ∀ update, .change update ∈ actions → ∀ store : Store, (update store).journal = store.journal

/-- Every record of a batch that was written has its entry. -/
theorem entries_of_run (alone : LeavesJournal actions)
    (run : Service.run? Store.journalWriter limit ⟨Drain.initial, start⟩ actions =
      some (service, events)) :
    ∀ job batch, .answered job batch .ok ∈ events → ∀ record ∈ batch.records,
      ∃ stored ∈ service.world.journal, stored.id = record.id := by
  refine runOf_induction (motive := fun actions (service : Service _ _ Store) events =>
    LeavesJournal actions → ∀ job batch, .answered job batch .ok ∈ events →
      ∀ record ∈ batch.records, ∃ stored ∈ service.world.journal, stored.id = record.id)
    ?_ ?_ run alone
  · simp
  · intro actions service events _ next now _ held taken alone job batch member record among
    have earlier : ∀ batch, .answered job batch .ok ∈ events → ∀ record ∈ batch.records,
        ∃ stored ∈ service.world.journal, stored.id = record.id :=
      held (fun update member => alone update (List.mem_append_left _ member)) job
    cases Service.Step.of_step? taken with
    | drive free taken =>
        rcases List.mem_append.mp member with before | later
        · exact earlier batch before record among
        · exact absurd later ((Drain.Step.of_step? taken).tally_of_free free job batch).1
    | write calling written answered =>
        rename_i key pending failures result after next
        have kept : ∀ stored ∈ service.world.journal, stored ∈ after.journal := by
          intro stored member
          cases Store.JournalWrite.of_writer written with
          | away => exact member
          | unknown _ _ _ _ journal => rwa [journal]
          | done _ _ _ journal =>
              rw [journal]
              exact Store.mem_foldl_addRecord member
        rcases List.mem_append.mp member with before | later
        · obtain ⟨stored, entry, same⟩ := earlier batch before record among
          exact ⟨stored, kept stored entry, same⟩
        · rcases (Drain.Step.of_step? answered).of_answer calling with
            ⟨rfl, rfl⟩ | ⟨failure, rfl, ⟨_, rfl⟩ | ⟨_, rfl | rfl⟩⟩
          · obtain ⟨rfl, rfl⟩ : job = key ∧ batch = pending := by simpa using later
            cases Store.JournalWrite.of_writer written with
            | done _ _ _ journal =>
                rw [journal]
                exact Store.exists_foldl_addRecord among
          all_goals simp at later
    | change =>
        rename_i update
        rw [List.append_nil] at member
        rw [alone update (by simp) service.world]
        exact earlier batch member record among

/-- Once a job is idle of which no batch was refused or dropped, every record that was submitted
has its entry. -/
theorem entries_of_idle (alone : LeavesJournal actions)
    (run : Service.run? Store.journalWriter limit ⟨Drain.initial, start⟩ actions =
      some (service, events)) {job : Uuid}
    (allowed : ∀ batch, .answered job batch .rejected ∉ events)
    (kept : ∀ failure, .abandoned job failure ∉ events)
    (taken : ∀ batch, .refused job batch ∉ events)
    (idle : service.drain.table.states.get? job = none) :
    ∀ batch ∈ actions.filterMap (Service.Action.offer? job), ∀ record ∈ batch.records,
      ∃ stored ∈ service.world.journal, stored.id = record.id := by
  obtain ⟨safe, accepted⟩ := Service.safe_of_run run allowed kept taken
  obtain ⟨ledger, accounts⟩ := Service.ledger_of_run run job
  rw [Drain.standing_of_absent idle] at accounts
  obtain ⟨blocks, persisted, offered⟩ := accounts.replays safe
  intro batch member record among
  rw [← accepted, offered] at member
  obtain ⟨block, inside, part⟩ := List.mem_flatMap.mp member
  have called : block.merged ∈ (history job events).filterMap Event.persisted? := by
    have all : (history job events).filterMap Event.persisted? = blocks.map Block.merged := by
      simpa [Standing.flight?, Standing.queued?] using persisted
    rw [all]
    exact List.mem_map_of_mem inside
  exact entries_of_run alone run job block.merged (mem_persisted.mp called) record
    (JournalBatch.mem_merged part among)

end Intake
