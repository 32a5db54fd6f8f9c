import Intake.Proofs.Progress.Persistence

/-!
# Two routes to a row

A lone delta is added to the row in place, one counter after the other; anything else is applied to
the row as a whole.  A job can be created directly, or by a mutation.  A caller cannot tell the
routes apart by their results.  They leave different rows only where the second sum of a lone delta
overflows after the first one moved the row.
-/

namespace Intake
namespace Store

/-- Two writes end alike: with one result, one progress and one journal. -/
structure EndAlike (left right : StoreResult JobProgress × Store) : Prop where
  result : left.1 = right.1
  progress : left.2.progress = right.2.progress
  journal : left.2.journal = right.2.journal

/-! ## The general route -/

section Update

variable {store : Store} {job : Uuid} {mutation : ProgressMutation}

theorem updateProgress_of_away (absent : store.unavailable = true) :
    store.updateProgress job mutation = (.failed outage, store) := by
  simp [updateProgress, absent]

theorem updateProgress_of_unknown (present : store.unavailable = false)
    (missing : store.progress.get? job = none) (creates : mutation.createsJob = false) :
    store.updateProgress job mutation =
      (.failed (.notFound job), { store with fullWrites := store.fullWrites + 1 }) := by
  simp [updateProgress, present, missing, creates]

/-- A mutation that the store takes is applied to the row of its job, or to a new one. -/
theorem updateProgress_of_accepts (present : store.unavailable = false)
    (accepts : store.Accepts job mutation) :
    store.updateProgress job mutation =
      let counted := { store with fullWrites := store.fullWrites + 1 }
      match mutation.apply (store.origin job) with
      | .error cause => (.overflow cause, counted)
      | .ok row => (.ok row, { counted with progress := store.progress.insert job row }) := by
  cases held : store.progress.get? job with
  | some row =>
      rw [origin_of_held held]
      cases applied : mutation.apply row <;> simp [updateProgress, present, held, applied]
  | none =>
      rw [origin_of_missing held]
      cases applied : mutation.apply (.start job none) <;>
        simp [updateProgress, present, held, accepts held, applied]

/-- Whatever comes of an update, nothing is changed but the row of the job. -/
theorem untouched_or_rewritten_update (store : Store) (job : Uuid) (mutation : ProgressMutation) :
    store.Untouched (store.updateProgress job mutation).2 ∨
      ∃ row, store.Rewritten job row (store.updateProgress job mutation).2 := by
  cases absent : store.unavailable with
  | true =>
      rw [updateProgress_of_away absent]
      exact .inl ⟨rfl, rfl⟩
  | false =>
      by_cases accepts : store.Accepts job mutation
      · rw [updateProgress_of_accepts absent accepts]
        cases mutation.apply (store.origin job) with
        | error cause => exact .inl ⟨rfl, rfl⟩
        | ok row => exact .inr ⟨row, rfl, rfl⟩
      · obtain ⟨missing, creates⟩ := Classical.not_imp.mp accepts
        rw [updateProgress_of_unknown absent missing (Bool.not_eq_true _ ▸ creates)]
        exact .inl ⟨rfl, rfl⟩

end Update

/-! ## Adding a delta -/

/-- Both routes answer a delta alike, overflows included. -/
theorem applyDelta_result (store : Store) (delta : ProgressDelta) :
    (store.applyDelta delta).1 = (store.updateProgress delta.job (.delta delta)).1 := by
  cases absent : store.unavailable with
  | true => simp [applyDelta, updateProgress, absent]
  | false =>
      cases held : store.progress.get? delta.job with
      | none =>
          rw [updateProgress_of_unknown absent held rfl]
          simp [applyDelta, absent, held]
      | some row =>
          rw [updateProgress_of_accepts absent (by simp [Accepts, held]), origin_of_held held,
            ProgressMutation.apply_delta]
          -- One route stops between the sums, the other makes the whole row first.
          cases first : Counter.add row.succeeded delta.succeeded with
          | error cause =>
              simp [applyDelta, absent, held, first, JobProgress.add, bind, Except.bind]
          | ok succeeded =>
              cases second : Counter.add row.failed delta.failed <;>
                simp [applyDelta, absent, held, first, second, JobProgress.add, bind, Except.bind,
                  pure, Except.pure]

/-- Only the progress can tell which way a delta went. -/
private theorem endAlike_iff_progress {store : Store} {delta : ProgressDelta} :
    EndAlike (store.applyDelta delta) (store.updateProgress delta.job (.delta delta)) ↔
      (store.applyDelta delta).2.progress =
        (store.updateProgress delta.job (.delta delta)).2.progress := by
  refine ⟨EndAlike.progress, fun progress => ⟨applyDelta_result store delta, progress, ?_⟩⟩
  rw [(Persisted.of_applyDelta store delta).others_eq.1]
  rcases untouched_or_rewritten_update store delta.job (.delta delta) with same | ⟨row, rewritten⟩
  · exact same.journal.symm
  · exact rewritten.journal.symm

/-- The routes leave the same store unless the one that adds in place stops half-way. -/
theorem endAlike_delta_iff (store : Store) (delta : ProgressDelta) :
    EndAlike (store.applyDelta delta) (store.updateProgress delta.job (.delta delta)) ↔
      ¬store.Torn delta.job (.delta delta) := by
  have outcome := Persisted.of_applyDelta store delta
  rw [endAlike_iff_progress]
  generalize reviewed (store.applyDelta delta).1 = result at outcome
  generalize (store.applyDelta delta).2 = after at outcome ⊢
  cases outcome with
  | away absent =>
      rw [updateProgress_of_away absent]
      exact iff_of_true rfl (by simp [Torn, absent])
  | unknown present missing creates same =>
      rw [updateProgress_of_unknown present missing creates]
      exact iff_of_true same.progress (by simp [Torn, missing])
  | crashed present accepts applied early same =>
      rw [updateProgress_of_accepts present accepts, applied]
      exact iff_of_true same.progress (Persisted.not_torn_of_early early)
  | torn present lone held first second half =>
      have applied := Persisted.apply_of_torn lone held first second
      rw [updateProgress_of_accepts present (by simp [Accepts, held]), applied,
        ← Persisted.whole_torn_iff present lone held first second half]
      exact ⟨fun progress => ⟨progress, half.journal⟩, Untouched.progress⟩
  | written present accepts applied whole =>
      rw [updateProgress_of_accepts present accepts, applied]
      exact iff_of_true whole.progress (Persisted.not_torn_of_apply applied)

/-! ## Creating a job -/

/-- Creating a job directly ends like the mutation that creates it. -/
theorem endAlike_create (store : Store) (job : Uuid) (total : Option Int64) :
    EndAlike (store.createProgress job total) (store.updateProgress job (.create total)) := by
  cases absent : store.unavailable with
  | true =>
      rw [updateProgress_of_away absent]
      simp only [createProgress, absent, if_true]
      exact ⟨rfl, rfl, rfl⟩
  | false =>
      -- The one starts a row that has its total, the other sets it afterwards.
      have applied : (ProgressMutation.create total).apply (store.origin job) =
          .ok (let row := (store.progress.get? job).getD (.start job total)
            if total.isSome then { row with total } else row) := by
        cases total <;> cases held : store.progress.get? job <;>
          simp [ProgressMutation.create, ProgressMutation.apply, ProgressStep.apply, origin, held,
            JobProgress.start, pure, Except.pure, bind, Except.bind]
      rw [updateProgress_of_accepts absent fun _ => rfl, applied]
      simp only [createProgress, absent, Bool.false_eq_true, if_false]
      exact ⟨rfl, rfl, rfl⟩

/-- Adding a lone delta in place is answered like applying its mutation to the row, and leaves the
same progress and the same journal unless the first counter moves and the second sum overflows; if
both sums fit, nothing tells the two apart.  Creating a job directly always ends like the mutation
that creates it. -/
theorem routes_end_alike (store : Store) (job : Uuid) :
    (∀ mutation delta, mutation.asDelta = some delta → delta.job = job →
      (store.applyDelta delta).1 = (store.updateProgress job mutation).1 ∧
      (EndAlike (store.applyDelta delta) (store.updateProgress job mutation) ↔
        ¬store.Torn job mutation) ∧
      ((∀ row, store.progress.get? job = some row →
          Counter.Fits (row.succeeded.toInt + delta.succeeded.toInt) ∧
            Counter.Fits (row.failed.toInt + delta.failed.toInt)) →
        EndAlike (store.applyDelta delta) (store.updateProgress job mutation))) ∧
    ∀ total,
      EndAlike (store.createProgress job total) (store.updateProgress job (.create total)) := by
  refine ⟨?_, endAlike_create store job⟩
  rintro mutation delta lone rfl
  obtain rfl := ProgressMutation.eq_of_asDelta lone
  refine ⟨applyDelta_result store delta, endAlike_delta_iff store delta, fun fits => ?_⟩
  rw [endAlike_delta_iff]
  rintro ⟨_, other, row, same, held, _, _, beyond⟩
  obtain rfl := Option.some.inj same
  exact beyond (fits row held).2

/-- A delta that takes both counters to their limits. -/
theorem brim_ends_alike :
    EndAlike ((brim (some 9)).applyDelta ⟨.zero, 9223372036854775806, 1⟩)
      ((brim (some 9)).updateProgress .zero (.delta ⟨.zero, 9223372036854775806, 1⟩)) := by
  have held : (brim (some 9)).progress.get? .zero =
      some ⟨.zero, some 9, 1, 9223372036854775806⟩ := rfl
  refine ((routes_end_alike (brim (some 9)) .zero).1 _ _ rfl rfl).2.2 fun row same => ?_
  obtain rfl := Option.some.inj (held.symm.trans same)
  decide

end Store
end Intake
