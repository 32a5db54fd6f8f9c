import Intake.Proofs.Journal.Exact
import Intake.Proofs.Progress.Routes

/-!
# Saving batches

Nothing that is asked of a store removes a row or an entry.  So in every store that is reached the
entries have different identifiers, and each of them is of a job with a row.  A batch is saved as a
whole or refused as a whole, and since an identifier is entered once, it does not matter how records
are cut into batches or how often a batch is saved.
-/

namespace Intake
namespace Store

/-! ## What can be asked of a store -/

/-- Something that is asked of a store. -/
inductive Operation where
  | setUnavailable (unavailable : Bool)
  | create (job : Uuid) (total : Option Int64)
  | load (job : Uuid)
  | add (delta : ProgressDelta)
  | update (job : Uuid) (mutation : ProgressMutation)
  | save (records : List JournalRecord)

/-- The store after an operation, however it ended. -/
def after (store : Store) : Operation → Store
  | .setUnavailable unavailable => store.setUnavailable unavailable
  | .create job total => (store.createProgress job total).2
  | .load job => (store.loadProgress job).2
  | .add delta => (store.applyDelta delta).2
  | .update job mutation => (store.updateProgress job mutation).2
  | .save records => (store.saveJournal records).2

/-- The store after operations. -/
def afterAll (store : Store) (operations : List Operation) : Store := operations.foldl after store

/-- A job has its row. -/
def Knows (store : Store) (job : Uuid) : Prop := store.progress.get? job ≠ none

/-- The journal is as it was, and every job that had a row has one. -/
structure KeepsEntries (before after : Store) : Prop where
  journal : after.journal = before.journal
  knows : ∀ job, before.Knows job → after.Knows job

theorem KeepsEntries.of_untouched_or_rewritten {before after : Store} {job : Uuid}
    (frame : before.Untouched after ∨ ∃ row, before.Rewritten job row after) :
    KeepsEntries before after := by
  rcases frame with same | ⟨row, rewritten⟩
  · exact ⟨same.journal, fun other known => by rwa [Knows, same.progress]⟩
  · refine ⟨rewritten.journal, fun other known => ?_⟩
    rw [Knows, rewritten.get?_eq]
    split
    · exact Option.some_ne_none row
    · exact known

/-! ## One batch -/

/-- A batch can be saved: the store is there and knows the job of every record. -/
def Takes (store : Store) (records : List JournalRecord) : Prop :=
  store.unavailable = false ∧ ∀ record ∈ records, store.Knows record.job

section Save

variable {store : Store} {records : List JournalRecord}

theorem saveJournal_of_takes (takes : store.Takes records) :
    store.saveJournal records =
      (.ok (), { store with
        journal := records.foldl addRecord store.journal
        journalWrites := store.journalWrites + 1 }) := by
  obtain ⟨present, known⟩ := takes
  have none : records.find? (fun record => !store.progress.contains record.job) = none := by
    rw [List.find?_eq_none]
    intro record member
    have held : store.progress.get? record.job ≠ none := known record member
    simpa [KeyMap.contains, Option.isSome_iff_ne_none] using held
  simp [saveJournal, present, none]

/-- A batch that cannot be saved is refused, and nothing of it is entered. -/
theorem saveJournal_of_not_takes (refused : ¬store.Takes records) :
    ∃ failure, (store.saveJournal records).1 = .failed failure ∧
      store.Untouched (store.saveJournal records).2 := by
  cases absent : store.unavailable with
  | true =>
      refine ⟨outage, ?_⟩
      simp only [saveJournal, absent, if_true, true_and]
      exact ⟨rfl, rfl⟩
  | false =>
      cases found : records.find? fun record => !store.progress.contains record.job with
      | some record =>
          refine ⟨unknownJob record, ?_⟩
          simp only [saveJournal, absent, found, Bool.false_eq_true, if_false, true_and]
          exact ⟨rfl, rfl⟩
      | none =>
          refine absurd ⟨absent, fun record member => ?_⟩ refused
          have known := List.find?_eq_none.mp found record member
          simpa [Knows, KeyMap.contains, Option.isSome_iff_ne_none] using known

/-- Saving leaves the progress alone, and whether the store is there. -/
theorem progress_saveJournal (store : Store) (records : List JournalRecord) :
    (store.saveJournal records).2.progress = store.progress ∧
      (store.saveJournal records).2.unavailable = store.unavailable := by
  unfold saveJournal
  split
  · exact ⟨rfl, rfl⟩
  · dsimp only
    split <;> exact ⟨rfl, rfl⟩

theorem takes_saveJournal (others : List JournalRecord) :
    (store.saveJournal others).2.Takes records ↔ store.Takes records := by
  obtain ⟨progress, present⟩ := progress_saveJournal store others
  simp only [Takes, Knows, progress, present]

/-- Records that have entries are not entered again. -/
theorem foldl_addRecord_of_entered {journal : List JournalRecord}
    (entered : ∀ record ∈ records, ∃ stored ∈ journal, stored.id = record.id) :
    records.foldl addRecord journal = journal := by
  induction records with
  | nil => rfl
  | cons record records ih =>
      obtain ⟨first, rest⟩ := List.forall_mem_cons.mp entered
      have known : journal.any (·.id == record.id) = true := by simpa using first
      rw [List.foldl_cons, addRecord, if_pos known, ih rest]

end Save

/-! ## Every store that is reached -/

/-- The entries have different identifiers, and each of them is of a job with a row. -/
structure Sound (store : Store) : Prop where
  distinct : (store.journal.map JournalRecord.id).Nodup
  known : ∀ stored ∈ store.journal, store.Knows stored.job

theorem sound_empty : empty.Sound :=
  ⟨List.nodup_nil, fun _ member => absurd member List.not_mem_nil⟩

theorem Sound.keep {before after : Store} (sound : before.Sound)
    (keeps : KeepsEntries before after) : after.Sound where
  distinct := by rw [keeps.journal]; exact sound.distinct
  known stored member := keeps.knows _ (sound.known stored (keeps.journal ▸ member))

theorem nodup_addRecord {journal : List JournalRecord} (record : JournalRecord)
    (distinct : (journal.map JournalRecord.id).Nodup) :
    ((addRecord journal record).map JournalRecord.id).Nodup := by
  unfold addRecord
  split
  · exact distinct
  · rename_i new
    have fresh : ∀ stored ∈ journal, stored.id ≠ record.id := by simpa using new
    rw [List.map_append, List.nodup_append]
    refine ⟨distinct, List.nodup_singleton _, ?_⟩
    intro id early other late
    obtain ⟨stored, member, rfl⟩ := List.mem_map.mp early
    rw [List.mem_singleton.mp late]
    exact fresh stored member

theorem nodup_foldl_addRecord {journal : List JournalRecord} (records : List JournalRecord)
    (distinct : (journal.map JournalRecord.id).Nodup) :
    ((records.foldl addRecord journal).map JournalRecord.id).Nodup := by
  induction records generalizing journal with
  | nil => exact distinct
  | cons record records ih => exact ih (nodup_addRecord record distinct)

theorem Sound.save {store : Store} (sound : store.Sound) (records : List JournalRecord) :
    (store.saveJournal records).2.Sound := by
  by_cases takes : store.Takes records
  · rw [saveJournal_of_takes takes]
    refine ⟨nodup_foldl_addRecord records sound.distinct, fun stored member => ?_⟩
    rcases mem_of_mem_foldl_addRecord member with before | now
    · exact sound.known stored before
    · exact takes.2 stored now
  · obtain ⟨_, _, same⟩ := saveJournal_of_not_takes takes
    exact sound.keep ⟨same.journal, fun job known => by rwa [Knows, same.progress]⟩

theorem Sound.after {store : Store} (sound : store.Sound) (operation : Operation) :
    (store.after operation).Sound := by
  cases operation with
  | setUnavailable unavailable => exact sound.keep ⟨rfl, fun _ => id⟩
  | create job total =>
      have alike := endAlike_create store job total
      have keeps := KeepsEntries.of_untouched_or_rewritten
        (untouched_or_rewritten_update store job (.create total))
      refine sound.keep ⟨alike.journal.trans keeps.journal, fun other known => ?_⟩
      rw [Knows, Store.after, alike.progress]
      exact keeps.knows other known
  | load job =>
      refine sound.keep ?_
      simp only [Store.after, loadProgress]
      split
      · exact ⟨rfl, fun _ => id⟩
      · split <;> exact ⟨rfl, fun _ => id⟩
  | add delta =>
      exact sound.keep (.of_untouched_or_rewritten
        (Persisted.of_applyDelta store delta).untouched_or_rewritten)
  | update job mutation =>
      exact sound.keep (.of_untouched_or_rewritten
        (untouched_or_rewritten_update store job mutation))
  | save records => exact sound.save records

theorem sound_afterAll {store : Store} (sound : store.Sound) (operations : List Operation) :
    (store.afterAll operations).Sound := by
  induction operations generalizing store with
  | nil => exact sound
  | cons operation operations ih => exact ih (sound.after operation)

/-! ## Batches -/

/-- The records that have no entry yet, the first of each identifier, in order. -/
def news (store : Store) (records : List JournalRecord) : List JournalRecord :=
  (records.filter fun record => !store.journal.any (·.id == record.id)).eraseDupsBy (·.id == ·.id)

section Batches

variable {store : Store} {first second records : List JournalRecord}

theorem saved_iff : (store.saveJournal records).1 = .ok () ↔ store.Takes records := by
  constructor
  · intro saved
    by_contra refused
    obtain ⟨failure, failed, _⟩ := saveJournal_of_not_takes refused
    simp [saved] at failed
  · intro takes
    rw [saveJournal_of_takes takes]

theorem refused_iff :
    (∃ failure, (store.saveJournal records).1 = .failed failure ∧
      store.Untouched (store.saveJournal records).2) ↔
        store.unavailable = true ∨ ∃ record ∈ records, ¬store.Knows record.job := by
  have lacks : ¬store.Takes records ↔
      store.unavailable = true ∨ ∃ record ∈ records, ¬store.Knows record.job := by
    rw [Takes, not_and_or, Bool.not_eq_false]
    simp
  rw [← lacks]
  refine ⟨?_, saveJournal_of_not_takes⟩
  rintro ⟨failure, failed, _⟩ takes
  simp [saved_iff.mpr takes] at failed

/-- What is saved is appended. -/
theorem journal_of_takes (takes : store.Takes records) :
    (store.saveJournal records).2.journal = store.journal ++ store.news records := by
  rw [saveJournal_of_takes takes]
  exact foldl_addRecord store.journal records

theorem prefix_saveJournal (store : Store) (records : List JournalRecord) :
    store.journal <+: (store.saveJournal records).2.journal := by
  by_cases takes : store.Takes records
  · rw [journal_of_takes takes]
    exact List.prefix_append ..
  · obtain ⟨_, _, same⟩ := saveJournal_of_not_takes takes
    exact same.journal.symm ▸ List.prefix_rfl

/-- Where one batch ends and the next begins does not matter. -/
theorem journal_append (known : ∀ record ∈ first ++ second, store.Knows record.job) :
    (store.saveJournal (first ++ second)).2.journal =
      ((store.saveJournal first).2.saveJournal second).2.journal := by
  obtain ⟨early, late⟩ := List.forall_mem_append.mp known
  cases absent : store.unavailable with
  | true => simp [saveJournal, absent]
  | false =>
      have takesFirst : store.Takes first := ⟨absent, early⟩
      have takesSecond : (store.saveJournal first).2.Takes second :=
        (takes_saveJournal first).mpr ⟨absent, late⟩
      rw [saveJournal_of_takes (⟨absent, known⟩ : store.Takes (first ++ second)),
        saveJournal_of_takes takesSecond, saveJournal_of_takes takesFirst]
      exact List.foldl_append

/-- What was saved can be saved again, and nothing comes of it. -/
theorem journal_again (store : Store) (records : List JournalRecord) :
    ((store.saveJournal records).2.saveJournal records).2.journal =
      (store.saveJournal records).2.journal := by
  by_cases takes : store.Takes records
  · rw [saveJournal_of_takes ((takes_saveJournal records).mpr takes), saveJournal_of_takes takes]
    exact foldl_addRecord_of_entered fun record member => exists_foldl_addRecord member
  · have still : ¬(store.saveJournal records).2.Takes records :=
      fun takesNow => takes ((takes_saveJournal records).mp takesNow)
    obtain ⟨_, _, same⟩ := saveJournal_of_not_takes still
    exact same.journal

end Batches

/-- In every store that is reached the entries have different identifiers and are of jobs with a
row.  There a batch is refused, and then nothing is changed, exactly if the store is away or does
not know the job of some record; otherwise it is saved.  How records of known jobs are cut into
batches and how often a batch is saved makes no difference to the journal, which keeps what it had
and gets the records with new identifiers, the first of each, in order. -/
theorem saving_is_whole (operations : List Operation) :
    let store := empty.afterAll operations
    ((store.journal.map JournalRecord.id).Nodup ∧
      ∀ stored ∈ store.journal, store.Knows stored.job) ∧
    (∀ records,
      ((∃ failure, (store.saveJournal records).1 = .failed failure ∧
          store.Untouched (store.saveJournal records).2) ↔
        store.unavailable = true ∨ ∃ record ∈ records, ¬store.Knows record.job) ∧
      ((store.saveJournal records).1 = .ok () ↔
        store.unavailable = false ∧ ∀ record ∈ records, store.Knows record.job) ∧
      (store.saveJournal records).2.progress = store.progress) ∧
    ∀ first second, (∀ record ∈ first ++ second, store.Knows record.job) →
      let saved := (store.saveJournal first).2
      (store.saveJournal (first ++ second)).2.journal = (saved.saveJournal second).2.journal ∧
      (saved.saveJournal first).2.journal = saved.journal ∧
      store.journal <+: saved.journal ∧
      (store.unavailable = false → saved.journal = store.journal ++ store.news first) := by
  intro store
  have sound : store.Sound := sound_afterAll sound_empty operations
  refine ⟨⟨sound.distinct, sound.known⟩, fun records => ?_, fun first second known => ?_⟩
  · exact ⟨refused_iff, saved_iff, (progress_saveJournal store records).1⟩
  · refine ⟨journal_append known, journal_again store first, prefix_saveJournal store first, ?_⟩
    intro present
    exact journal_of_takes ⟨present, (List.forall_mem_append.mp known).1⟩

/-- A record of a job that has its row, another one of the same identifier, and a third one. -/
def threeRecords : List JournalRecord := [numbered 1 "a", numbered 1 "b", numbered 2 "c"]

/-- A batch that overlaps with what is stored and repeats itself is saved like its parts. -/
theorem threeRecords_are_saved_whole :
    let store := empty.afterAll
      [.create .zero none, .save [numbered 2 "z"], .setUnavailable true, .save threeRecords,
        .setUnavailable false]
    (∀ record ∈ threeRecords, store.Knows record.job) ∧
      (store.saveJournal threeRecords).2.journal = [numbered 2 "z", numbered 1 "a"] ∧
      ((store.saveJournal [numbered 1 "a", numbered 1 "b"]).2.saveJournal
        [numbered 2 "c"]).2.journal = [numbered 2 "z", numbered 1 "a"] := by
  intro store
  have known : ∀ record ∈ threeRecords, store.Knows record.job := by
    have held : store.Knows .zero := by
      unfold Knows
      decide +kernel
    simpa [threeRecords, numbered] using held
  have journal : (store.saveJournal threeRecords).2.journal = [numbered 2 "z", numbered 1 "a"] := by
    decide +kernel
  obtain ⟨_, _, parts⟩ := saving_is_whole [.create .zero none, .save [numbered 2 "z"],
    .setUnavailable true, .save threeRecords, .setUnavailable false]
  have cut := (parts [numbered 1 "a", numbered 1 "b"] [numbered 2 "c"] known).1
  exact ⟨known, journal, cut.symm.trans journal⟩

end Store
end Intake
