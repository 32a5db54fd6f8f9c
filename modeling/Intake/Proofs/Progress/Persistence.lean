import Intake.Proofs.Progress.Replay

/-!
# Persisting progress

A mutation is persisted in three parts: the new row is made, it is written, and it is compared with
its total.  `Store.Persisted` lists what can come of it.  Persisting is all or nothing but for two
overflows that strike late: the second sum of a lone delta when the first one is already written,
and the sum of the processed records when the whole row is.
-/

namespace Intake

theorem ProgressMutation.apply_delta (delta : ProgressDelta) (row : JobProgress) :
    (ProgressMutation.delta delta).apply row = row.add delta :=
  bind_pure (row.add delta)

namespace Store

/-- A written row is reported, unless its processed records have to be compared with a total and
overflow. -/
theorem reviewed_cases (row : JobProgress) :
    (∃ notices, reviewed (.ok row) = .ok notices ∧ ∀ total, row.total = some total →
      Counter.Fits (row.succeeded.toInt + row.failed.toInt)) ∨
    ∃ cause total, reviewed (.ok row) = .overflow cause ∧ row.total = some total ∧
      ¬Counter.Fits (row.succeeded.toInt + row.failed.toInt) := by
  cases known : row.total with
  | none =>
      have answer : row.exceedsTotal = .ok false := by simp [JobProgress.exceedsTotal, known]
      exact .inl ⟨[], by simp [reviewed, answer], nofun⟩
  | some total =>
      have answer : row.exceedsTotal =
          do return total < (← Counter.add row.succeeded row.failed) := by
        simp [JobProgress.exceedsTotal, JobProgress.processed, known]
      cases sum : Counter.add row.succeeded row.failed with
      | error cause =>
          have crash : reviewed (.ok row) = .overflow cause := by
            simp [reviewed, answer, sum, bind, Except.bind]
          exact .inr ⟨cause, total, crash, rfl, (Counter.add_eq_error_iff.mp sum).1⟩
      | ok processed =>
          have done : reviewed (.ok row) =
              .ok (if total < processed then exceededNotices else []) := by
            by_cases exceeds : total < processed <;>
              simp [reviewed, answer, sum, exceeds, bind, Except.bind, pure, Except.pure]
          exact .inl ⟨_, done, fun _ _ => (Counter.add_eq_ok_iff.mp sum).1⟩

/-- The progress from which the mutations of a job start. -/
def origin (store : Store) (job : Uuid) : JobProgress :=
  (store.progress.get? job).getD (.start job none)

theorem origin_of_held {store : Store} {job : Uuid} {row : JobProgress}
    (held : store.progress.get? job = some row) : store.origin job = row := by
  rw [origin, held, Option.getD_some]

theorem origin_of_missing {store : Store} {job : Uuid}
    (missing : store.progress.get? job = none) : store.origin job = .start job none := by
  rw [origin, missing, Option.getD_none]

/-- A mutation can be written: its job has a row, or the mutation creates one. -/
def Accepts (store : Store) (job : Uuid) (mutation : ProgressMutation) : Prop :=
  store.progress.get? job = none → mutation.createsJob = true

/-- Progress and journal are as they were. -/
structure Untouched (before after : Store) : Prop where
  progress : after.progress = before.progress
  journal : after.journal = before.journal

/-- Nothing but the row of a job was set. -/
structure Rewritten (before : Store) (job : Uuid) (row : JobProgress) (after : Store) : Prop where
  progress : after.progress = before.progress.insert job row
  journal : after.journal = before.journal

theorem Rewritten.untouched_iff {before after : Store} {job : Uuid} {row : JobProgress}
    (rewritten : before.Rewritten job row after) :
    before.Untouched after ↔ before.progress.get? job = some row := by
  constructor
  · intro same
    rw [← same.progress, rewritten.progress, KeyMap.get?_insert_self]
  · intro held
    exact ⟨by rw [rewritten.progress, KeyMap.insert_of_get? held], rewritten.journal⟩

theorem Rewritten.get?_eq {before after : Store} {job : Uuid} {row : JobProgress}
    (rewritten : before.Rewritten job row after) (other : Uuid) :
    after.progress.get? other = if job = other then some row else before.progress.get? other := by
  rw [rewritten.progress, KeyMap.get?_insert]

/-- What can come of persisting a mutation of a job. -/
inductive Persisted (store : Store) (job : Uuid) (mutation : ProgressMutation) :
    StoreResult (List Notice) → Store → Prop where
  | away (absent : store.unavailable = true) :
      Persisted store job mutation (.failed outage) store
  | unknown {after : Store} (present : store.unavailable = false)
      (missing : store.progress.get? job = none) (creates : mutation.createsJob = false)
      (same : store.Untouched after) :
      Persisted store job mutation (.failed (.notFound job)) after
  /-- An overflow before anything is written. -/
  | crashed {cause : Overflow} {after : Store} (present : store.unavailable = false)
      (accepts : store.Accepts job mutation)
      (applied : mutation.apply (store.origin job) = .error cause)
      (early : ∀ delta, mutation.asDelta = some delta →
        ¬Counter.Fits ((store.origin job).succeeded.toInt + delta.succeeded.toInt))
      (same : store.Untouched after) : Persisted store job mutation (.overflow cause) after
  /-- An overflow between the two sums of a lone delta. -/
  | torn {delta : ProgressDelta} {row : JobProgress} {succeeded : Int64} {cause : Overflow}
      {after : Store} (present : store.unavailable = false)
      (lone : mutation.asDelta = some delta) (held : store.progress.get? job = some row)
      (first : Counter.add row.succeeded delta.succeeded = .ok succeeded)
      (second : Counter.add row.failed delta.failed = .error cause)
      (half : store.Rewritten job { row with succeeded } after) :
      Persisted store job mutation (.overflow cause) after
  /-- The row is written, and then it is compared with its total. -/
  | written {row : JobProgress} {after : Store} (present : store.unavailable = false)
      (accepts : store.Accepts job mutation)
      (applied : mutation.apply (store.origin job) = .ok row)
      (whole : store.Rewritten job row after) :
      Persisted store job mutation (reviewed (.ok row)) after

namespace Persisted

variable {store : Store} {job : Uuid} {mutation : ProgressMutation}

theorem of_applyDelta (store : Store) (delta : ProgressDelta) :
    store.Persisted delta.job (.delta delta) (reviewed (store.applyDelta delta).1)
      (store.applyDelta delta).2 := by
  unfold applyDelta
  cases absent : store.unavailable with
  | true => exact .away absent
  | false =>
      simp only [Bool.false_eq_true, if_false]
      cases held : store.progress.get? delta.job with
      | none => exact .unknown absent held rfl ⟨rfl, rfl⟩
      | some row =>
          have accepts : store.Accepts delta.job (.delta delta) := by simp [Accepts, held]
          have start := origin_of_held held
          dsimp only
          cases first : Counter.add row.succeeded delta.succeeded with
          | error cause =>
              refine .crashed absent accepts ?_ ?_ ⟨rfl, rfl⟩
              · rw [start, ProgressMutation.apply_delta]
                simp [JobProgress.add, first, bind, Except.bind]
              · intro other same
                obtain rfl := Option.some.inj same
                rw [start]
                exact (Counter.add_eq_error_iff.mp first).1
          | ok succeeded =>
              dsimp only
              cases second : Counter.add row.failed delta.failed with
              | error cause => exact .torn absent rfl held first second ⟨rfl, rfl⟩
              | ok failed =>
                  refine .written absent accepts ?_ ⟨KeyMap.insert_insert .., rfl⟩
                  rw [start, ProgressMutation.apply_delta]
                  exact JobProgress.add_eq_ok_iff.mpr ⟨first, second, rfl, rfl⟩

/-- A row that is known is made, and then written. -/
private theorem of_row {row : JobProgress} {counted : Store} (present : store.unavailable = false)
    (accepts : store.Accepts job mutation) (start : store.origin job = row)
    (several : mutation.asDelta = none) (same : store.Untouched counted) :
    let outcome : StoreResult JobProgress × Store :=
      match mutation.apply row with
      | .error cause => (.overflow cause, counted)
      | .ok row => (.ok row, { counted with progress := counted.progress.insert job row })
    store.Persisted job mutation (reviewed outcome.1) outcome.2 := by
  subst start
  cases applied : mutation.apply (store.origin job) with
  | error cause => exact .crashed present accepts applied (by simp [several]) same
  | ok row => exact .written present accepts applied ⟨by rw [same.progress], same.journal⟩

theorem of_updateProgress (store : Store) (job : Uuid) (several : mutation.asDelta = none) :
    store.Persisted job mutation (reviewed (store.updateProgress job mutation).1)
      (store.updateProgress job mutation).2 := by
  unfold updateProgress
  cases absent : store.unavailable with
  | true => exact .away absent
  | false =>
      simp only [Bool.false_eq_true, if_false]
      cases held : store.progress.get? job with
      | some row =>
          exact of_row absent (by simp [Accepts, held]) (origin_of_held held) several ⟨rfl, rfl⟩
      | none =>
          cases creates : mutation.createsJob with
          | false => exact .unknown absent held creates ⟨rfl, rfl⟩
          | true =>
              exact of_row absent (fun _ => creates) (origin_of_missing held) several ⟨rfl, rfl⟩

/-- What can come of persisting a mutation whose deltas are for its job. -/
theorem of_persist (store : Store) (own : mutation.IsFor job) :
    store.Persisted job mutation (store.persistProgress job mutation).1
      (store.persistProgress job mutation).2 := by
  unfold persistProgress writeProgress
  cases lone : mutation.asDelta with
  | none => exact of_updateProgress store job lone
  | some delta =>
      obtain rfl := ProgressMutation.eq_of_asDelta lone
      obtain rfl : delta.job = job := own (.delta delta) (List.mem_singleton_self _)
      exact of_applyDelta store delta

/-- Nothing is changed but the row of the job. -/
theorem untouched_or_rewritten {result : StoreResult (List Notice)} {after : Store}
    (outcome : store.Persisted job mutation result after) :
    store.Untouched after ∨ ∃ row, store.Rewritten job row after := by
  cases outcome with
  | away absent => exact .inl ⟨rfl, rfl⟩
  | unknown present missing creates same => exact .inl same
  | crashed present accepts applied early same => exact .inl same
  | torn present lone held first second half => exact .inr ⟨_, half⟩
  | written present accepts applied whole => exact .inr ⟨_, whole⟩

theorem others_eq {result : StoreResult (List Notice)} {after : Store}
    (outcome : store.Persisted job mutation result after) :
    after.journal = store.journal ∧
      ∀ other, other ≠ job → after.progress.get? other = store.progress.get? other := by
  rcases outcome.untouched_or_rewritten with same | ⟨row, rewritten⟩
  · exact ⟨same.journal, fun other _ => by rw [same.progress]⟩
  · refine ⟨rewritten.journal, fun other different => ?_⟩
    rw [rewritten.get?_eq, if_neg (Ne.symm different)]

end Persisted

/-- Persisting progress leaves the journal alone. -/
theorem journal_persistProgress (store : Store) (job : Uuid) (mutation : ProgressMutation) :
    (store.persistProgress job mutation).2.journal = store.journal := by
  unfold persistProgress writeProgress
  cases lone : mutation.asDelta with
  | none => exact (Persisted.of_updateProgress store job lone).others_eq.1
  | some delta => exact (Persisted.of_applyDelta store delta).others_eq.1

/-! ## All or nothing -/

/-- The first counter of a lone delta moves, and then the second one overflows. -/
def Torn (store : Store) (job : Uuid) (mutation : ProgressMutation) : Prop :=
  store.unavailable = false ∧ ∃ delta row, mutation.asDelta = some delta ∧
    store.progress.get? job = some row ∧ delta.succeeded ≠ 0 ∧
    Counter.Fits (row.succeeded.toInt + delta.succeeded.toInt) ∧
    ¬Counter.Fits (row.failed.toInt + delta.failed.toInt)

/-- A changed row is written, and then its processed records overflow when they are compared with
its total. -/
def Unreviewed (store : Store) (job : Uuid) (mutation : ProgressMutation) : Prop :=
  store.unavailable = false ∧ store.Accepts job mutation ∧ ∃ row total,
    mutation.apply (store.origin job) = .ok row ∧ store.progress.get? job ≠ some row ∧
    row.total = some total ∧ ¬Counter.Fits (row.succeeded.toInt + row.failed.toInt)

/-- A result is all or nothing: the row of the job is what the mutation makes of it, and the other
rows and the journal are as they were, or it is a failure or a crash that has changed nothing. -/
def Whole (store : Store) (job : Uuid) (mutation : ProgressMutation) :
    StoreResult (List Notice) → Store → Prop
  | .ok _, after => store.Accepts job mutation ∧
      ∃ row, mutation.apply (store.origin job) = .ok row ∧ store.Rewritten job row after
  | .failed failure, after =>
      (failure = outage ∨ failure = .notFound job) ∧ store.Untouched after
  | .overflow _, after => store.Untouched after

/-- Persisting a mutation is all or nothing. -/
def PersistsWhole (store : Store) (job : Uuid) (mutation : ProgressMutation) : Prop :=
  store.Whole job mutation (store.persistProgress job mutation).1
    (store.persistProgress job mutation).2

namespace Persisted

variable {store after : Store} {job : Uuid} {mutation : ProgressMutation}
  {result : StoreResult (List Notice)}

/-- Where the second sum of a lone delta overflows, the whole mutation does. -/
theorem apply_of_torn {delta : ProgressDelta} {row : JobProgress} {succeeded : Int64}
    {cause : Overflow} (lone : mutation.asDelta = some delta)
    (held : store.progress.get? job = some row)
    (first : Counter.add row.succeeded delta.succeeded = .ok succeeded)
    (second : Counter.add row.failed delta.failed = .error cause) :
    mutation.apply (store.origin job) = .error cause := by
  rw [ProgressMutation.eq_of_asDelta lone, origin_of_held held, ProgressMutation.apply_delta]
  simp [JobProgress.add, first, second, bind, Except.bind]

/-- A mutation that can be applied is not torn. -/
theorem not_torn_of_apply {row : JobProgress}
    (applied : mutation.apply (store.origin job) = .ok row) : ¬store.Torn job mutation := by
  rintro ⟨_, delta, start, lone, held, _, _, beyond⟩
  rw [ProgressMutation.eq_of_asDelta lone, origin_of_held held, ProgressMutation.apply_delta]
    at applied
  obtain ⟨_, second, _⟩ := JobProgress.add_eq_ok_iff.mp applied
  exact beyond (Counter.add_eq_ok_iff.mp second).1

/-- A lone delta whose first sum overflows is not torn. -/
theorem not_torn_of_early
    (early : ∀ delta, mutation.asDelta = some delta →
      ¬Counter.Fits ((store.origin job).succeeded.toInt + delta.succeeded.toInt)) :
    ¬store.Torn job mutation := by
  rintro ⟨_, delta, row, lone, held, _, fits, _⟩
  rw [← origin_of_held held] at fits
  exact early delta lone fits

/-- Only a row that was made is compared with its total. -/
private theorem not_unreviewed_of_error {cause : Overflow}
    (applied : mutation.apply (store.origin job) = .error cause) :
    ¬store.Unreviewed job mutation := by
  rintro ⟨_, _, row, total, made, _⟩
  simp [made] at applied

/-- The first counter of a torn delta is as it was exactly if nothing was added to it. -/
private theorem kept_iff {row : JobProgress} {delta : ProgressDelta} {succeeded : Int64}
    (first : Counter.add row.succeeded delta.succeeded = .ok succeeded) :
    row = { row with succeeded } ↔ delta.succeeded = 0 := by
  obtain ⟨_, rfl⟩ := Counter.add_eq_ok_iff.mp first
  obtain ⟨job, total, before, failed⟩ := row
  simp [Int64.left_eq_add]

/-- Between the two sums nothing is lost exactly if the first one adds nothing. -/
theorem whole_torn_iff {delta : ProgressDelta} {row : JobProgress} {succeeded : Int64}
    {cause : Overflow} (present : store.unavailable = false)
    (lone : mutation.asDelta = some delta) (held : store.progress.get? job = some row)
    (first : Counter.add row.succeeded delta.succeeded = .ok succeeded)
    (second : Counter.add row.failed delta.failed = .error cause)
    (half : store.Rewritten job { row with succeeded } after) :
    store.Untouched after ↔ ¬store.Torn job mutation := by
  have fits := (Counter.add_eq_ok_iff.mp first).1
  have beyond := (Counter.add_eq_error_iff.mp second).1
  rw [half.untouched_iff, held, Option.some.injEq, kept_iff first, ← not_ne_iff, not_iff_not]
  constructor
  · intro moved
    exact ⟨present, delta, row, lone, held, moved, fits, beyond⟩
  · rintro ⟨_, other, _, same, _, moved, _⟩
    obtain rfl := Option.some.inj (lone.symm.trans same)
    exact moved

/-- A row that is written is there for good exactly if it needs no comparison, or if the comparison
comes to an end, or if it was there before. -/
private theorem whole_written_iff {row : JobProgress} (present : store.unavailable = false)
    (accepts : store.Accepts job mutation) (applied : mutation.apply (store.origin job) = .ok row)
    (whole : store.Rewritten job row after) :
    store.Whole job mutation (reviewed (.ok row)) after ↔ ¬store.Unreviewed job mutation := by
  rcases reviewed_cases row with ⟨notices, answer, fits⟩ | ⟨cause, total, answer, known, beyond⟩
  · rw [answer]
    refine iff_of_true ⟨accepts, row, applied, whole⟩ ?_
    rintro ⟨_, _, other, total, made, _, known, beyond⟩
    obtain rfl := Except.ok.inj (applied.symm.trans made)
    exact beyond (fits total known)
  · rw [answer, Whole, whole.untouched_iff, ← not_ne_iff, not_iff_not]
    constructor
    · intro changed
      exact ⟨present, accepts, row, total, applied, changed, known, beyond⟩
    · rintro ⟨_, _, other, _, made, changed, _⟩
      obtain rfl := Except.ok.inj (applied.symm.trans made)
      exact changed

theorem whole_iff (outcome : store.Persisted job mutation result after) :
    store.Whole job mutation result after ↔
      ¬store.Torn job mutation ∧ ¬store.Unreviewed job mutation := by
  cases outcome with
  | away absent =>
      have gone : store.Whole job mutation (.failed outage) store := ⟨.inl rfl, rfl, rfl⟩
      simp [gone, Torn, Unreviewed, absent]
  | unknown present missing creates same =>
      have refused : ¬store.Accepts job mutation := by simp [Accepts, missing, creates]
      simp [Whole, Torn, Unreviewed, missing, refused, same]
  | crashed present accepts applied early same =>
      exact iff_of_true same ⟨not_torn_of_early early, not_unreviewed_of_error applied⟩
  | torn present lone held first second half =>
      rw [and_iff_left (not_unreviewed_of_error (apply_of_torn lone held first second))]
      exact whole_torn_iff present lone held first second half
  | written present accepts applied whole =>
      rw [and_iff_right (not_torn_of_apply applied)]
      exact whole_written_iff present accepts applied whole

theorem ok_iff (outcome : store.Persisted job mutation result after) :
    (∃ notices, result = .ok notices) ↔
      store.unavailable = false ∧ store.Accepts job mutation ∧
        ∃ row, mutation.apply (store.origin job) = .ok row ∧ ∀ total, row.total = some total →
          Counter.Fits (row.succeeded.toInt + row.failed.toInt) := by
  cases outcome with
  | away absent => simp [absent]
  | unknown present missing creates same => simp [Accepts, missing, creates]
  | crashed present accepts applied early same => simp [applied]
  | torn present lone held first second half => simp [apply_of_torn lone held first second]
  | written present accepts applied whole =>
      rename_i row
      simp only [present, accepts, applied, Except.ok.injEq, exists_eq_left', true_and]
      rcases reviewed_cases row with ⟨notices, answer, fits⟩ | ⟨cause, total, answer, known, beyond⟩
      · exact iff_of_true ⟨notices, answer⟩ fits
      · exact iff_of_false (by simp [answer]) fun fits => beyond (fits total known)

end Persisted

/-- Persisting a mutation whose deltas are for its job is all or nothing but for two overflows that
strike late.  It succeeds exactly if the store is there and takes the mutation, the mutation can be
applied and, where the total is known, the processed records can be added up.  The journal and the
rows of other jobs are left alone in all cases. -/
theorem persisting_is_whole_iff (store : Store) {job : Uuid} {mutation : ProgressMutation}
    (own : mutation.IsFor job) :
    let (result, after) := store.persistProgress job mutation
    (store.PersistsWhole job mutation ↔
      ¬store.Torn job mutation ∧ ¬store.Unreviewed job mutation) ∧
    ((∃ notices, result = .ok notices) ↔
      store.unavailable = false ∧ store.Accepts job mutation ∧
        ∃ row, mutation.apply (store.origin job) = .ok row ∧ ∀ total, row.total = some total →
          Counter.Fits (row.succeeded.toInt + row.failed.toInt)) ∧
    after.journal = store.journal ∧
      ∀ other, other ≠ job → after.progress.get? other = store.progress.get? other := by
  have outcome := Persisted.of_persist store own
  exact ⟨outcome.whole_iff, outcome.ok_iff, outcome.others_eq⟩

/-- A store with one row, which is one failed record below the limit. -/
def brim (total : Option Int64) : Store :=
  let row : JobProgress := ⟨.zero, total, 1, 9223372036854775806⟩
  { empty with progress := KeyMap.empty.insert .zero row }

/-- An update between two deltas. -/
def turned : ProgressMutation :=
  ⟨[.delta (.success .zero), .mutate (ProgressUpdate.swap.apply ·), .delta (.success .zero)]⟩

theorem turned_is_whole :
    turned.IsFor .zero ∧ (brim none).PersistsWhole .zero turned ∧
      ∃ notices, ((brim none).persistProgress .zero turned).1 = .ok notices := by
  have own : turned.IsFor .zero := by
    simp [turned, ProgressMutation.IsFor, ProgressStep.IsFor, ProgressDelta.success]
  have lone : turned.asDelta = none := rfl
  have known : (brim none).progress.get? .zero ≠ none := by decide +kernel
  have applied : turned.apply ((brim none).origin .zero) =
      .ok ⟨.zero, none, 9223372036854775807, 2⟩ := rfl
  obtain ⟨whole, ends, _⟩ := persisting_is_whole_iff (brim none) own
  refine ⟨own, whole.mpr ⟨?_, ?_⟩, ends.mpr ⟨rfl, ?_, _, applied, by simp⟩⟩
  · rintro ⟨_, delta, _, same, _⟩
    simp [lone] at same
  · rintro ⟨_, _, row, total, made, _, known, _⟩
    obtain rfl := Except.ok.inj (applied.symm.trans made)
    simp at known
  · exact fun missing => absurd missing known

/-- A lone delta can be half written, and a row can be written by a call that then crashes. -/
theorem brim_is_not_whole :
    (¬(brim none).PersistsWhole .zero (.delta ⟨.zero, 1, 2⟩)) ∧
      ¬(brim (some 9)).PersistsWhole .zero turned := by
  constructor
  · intro whole
    have moved : ((brim none).persistProgress .zero (.delta ⟨.zero, 1, 2⟩)).2.progress.get? .zero =
        some ⟨.zero, none, 2, 9223372036854775806⟩ := rfl
    rw [whole.progress] at moved
    revert moved
    decide +kernel
  · intro whole
    have moved : ((brim (some 9)).persistProgress .zero turned).2.progress.get? .zero =
        some ⟨.zero, some 9, 9223372036854775807, 2⟩ := rfl
    rw [whole.progress] at moved
    revert moved
    decide +kernel

end Store
end Intake
