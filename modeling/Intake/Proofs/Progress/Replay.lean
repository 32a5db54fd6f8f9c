import Intake.Pipeline.SlowStore
import Intake.Proofs.Dispatch.Service

/-!
# What a mutation of progress does

Deltas are joined before they are applied, so the sums of a joined delta are checked later than
those of its parts.  With sums that wrap around, applying a mutation is the same as applying its
steps one after the other, however they were joined, and a checked application that succeeds agrees
with it.
-/

namespace Intake

open Dispatch

theorem ProgressDelta.plus?_eq_ok_iff {delta other sum : ProgressDelta} :
    delta.plus? other = .ok sum ↔
      Counter.add delta.succeeded other.succeeded = .ok sum.succeeded ∧
        Counter.add delta.failed other.failed = .ok sum.failed ∧ sum.job = delta.job := by
  constructor
  · intro added
    obtain ⟨succeeded, first, added⟩ := bind_eq_ok.mp added
    obtain ⟨failed, second, added⟩ := bind_eq_ok.mp added
    obtain rfl := Except.ok.inj added
    exact ⟨first, second, rfl⟩
  · obtain ⟨job, succeeded, failed⟩ := sum
    rintro ⟨first, second, rfl⟩
    exact bind_eq_ok.mpr ⟨_, first, bind_eq_ok.mpr ⟨_, second, rfl⟩⟩

theorem JobProgress.add_eq_ok_iff {progress sum : JobProgress} {delta : ProgressDelta} :
    progress.add delta = .ok sum ↔
      Counter.add progress.succeeded delta.succeeded = .ok sum.succeeded ∧
        Counter.add progress.failed delta.failed = .ok sum.failed ∧
          sum.job = progress.job ∧ sum.total = progress.total := by
  constructor
  · intro added
    obtain ⟨succeeded, first, added⟩ := bind_eq_ok.mp added
    obtain ⟨failed, second, added⟩ := bind_eq_ok.mp added
    obtain rfl := Except.ok.inj added
    exact ⟨first, second, rfl, rfl⟩
  · obtain ⟨job, total, succeeded, failed⟩ := sum
    rintro ⟨first, second, rfl, rfl⟩
    exact bind_eq_ok.mpr ⟨_, first, bind_eq_ok.mpr ⟨_, second, rfl⟩⟩

namespace ProgressStep

/-- The progress after a step, with sums that wrap around. -/
def act (progress : JobProgress) : ProgressStep → JobProgress
  | delta change =>
      { progress with
        succeeded := progress.succeeded + change.succeeded
        failed := progress.failed + change.failed }
  | mutate update =>
      match update progress with
      | .ok updated => updated
      | .error _ => progress
  | create none => progress
  | create (some total) => { progress with total := some total }

theorem act_of_apply {step : ProgressStep} {progress updated : JobProgress}
    (applied : apply progress step = .ok updated) : act progress step = updated := by
  cases step with
  | delta change =>
      obtain ⟨first, second, job, total⟩ := JobProgress.add_eq_ok_iff.mp applied
      obtain ⟨_, succeeded⟩ := Counter.add_eq_ok_iff.mp first
      obtain ⟨_, failed⟩ := Counter.add_eq_ok_iff.mp second
      rw [act, succeeded, failed, ← job, ← total]
  | mutate update =>
      simp only [apply] at applied
      simp [act, applied]
  | create total =>
      cases total <;> simpa [apply, act] using applied

/-- A delta is for the job. -/
def IsFor (job : Uuid) : ProgressStep → Prop
  | delta change => change.job = job
  | _ => True

end ProgressStep

namespace ProgressMutation

/-- The progress after every step, with sums that wrap around. -/
def act (progress : JobProgress) (mutation : ProgressMutation) : JobProgress :=
  mutation.steps.foldl ProgressStep.act progress

theorem act_of_apply {mutation : ProgressMutation} {progress updated : JobProgress}
    (applied : mutation.apply progress = .ok updated) : act progress mutation = updated := by
  obtain ⟨steps⟩ := mutation
  unfold apply at applied
  unfold act
  induction steps generalizing progress with
  | nil => exact Except.ok.inj applied
  | cons step steps ih =>
      obtain ⟨middle, first, rest⟩ := bind_eq_ok.mp applied
      rw [List.foldl_cons, ProgressStep.act_of_apply first]
      exact ih rest

theorem foldl_push (progress : JobProgress) (steps : List ProgressStep) (step : ProgressStep) :
    (push steps step).foldl ProgressStep.act progress =
      ProgressStep.act (steps.foldl ProgressStep.act progress) step := by
  fun_induction push steps step generalizing progress with
  | case1 step => rfl
  | case2 last next =>
      simp [ProgressStep.act, ProgressDelta.plus, Int64.add_assoc]
  | case3 => rfl
  | case4 first rest step _ _ ih => exact ih (ProgressStep.act progress first)

/-- Merging means to apply one mutation after the other. -/
theorem act_merge (progress : JobProgress) (earlier later : ProgressMutation) :
    act progress (Mergeable.merge earlier later) = act (act progress earlier) later := by
  obtain ⟨steps⟩ := later
  change (steps.foldl push earlier.steps).foldl ProgressStep.act progress =
    steps.foldl ProgressStep.act (earlier.steps.foldl ProgressStep.act progress)
  induction steps using List.reverseRecOn with
  | nil => rfl
  | append_singleton steps step ih =>
      rw [List.foldl_append, List.foldl_append, List.foldl_cons, List.foldl_nil, foldl_push, ih]
      rfl

/-! ## Jobs of a mutation -/

/-- Every delta of the mutation is for the job. -/
def IsFor (job : Uuid) (mutation : ProgressMutation) : Prop :=
  ∀ step ∈ mutation.steps, step.IsFor job

private theorem isFor_push {job : Uuid} {steps : List ProgressStep} {step : ProgressStep}
    (all : ∀ other ∈ steps, other.IsFor job) (own : step.IsFor job) :
    ∀ other ∈ push steps step, other.IsFor job := by
  fun_induction push steps step with
  | case1 step => simpa using own
  | case2 last next =>
      have first : last.job = job := all _ List.mem_cons_self
      simpa [ProgressStep.IsFor, ProgressDelta.plus] using first
  | case3 last step => simpa [own] using all
  | case4 first rest step _ _ ih =>
      rw [List.forall_mem_cons] at all ⊢
      exact ⟨all.1, ih all.2 own⟩

theorem isFor_merge {job : Uuid} (earlier later : ProgressMutation)
    (first : earlier.IsFor job) (second : later.IsFor job) :
    (Mergeable.merge earlier later).IsFor job := by
  obtain ⟨steps⟩ := later
  change ∀ other ∈ steps.foldl push earlier.steps, other.IsFor job
  induction steps using List.reverseRecOn with
  | nil => exact first
  | append_singleton steps step ih =>
      rw [List.foldl_append, List.foldl_cons, List.foldl_nil]
      apply isFor_push
      · exact ih fun other member => second other (List.mem_append_left _ member)
      · exact second step (by simp)

private theorem any_push (steps : List ProgressStep) (step : ProgressStep) :
    (push steps step).any ProgressStep.isCreate =
      (steps.any ProgressStep.isCreate || step.isCreate) := by
  fun_induction push steps step with
  | case1 step => simp
  | case2 last next => rfl
  | case3 => simp
  | case4 first rest step _ _ ih => simp [ih, Bool.or_assoc]

/-- A merged mutation creates a missing job if one of its parts does. -/
theorem createsJob_merge (earlier later : ProgressMutation) :
    (Mergeable.merge earlier later).createsJob = (earlier.createsJob || later.createsJob) := by
  obtain ⟨steps⟩ := later
  change (steps.foldl push earlier.steps).any ProgressStep.isCreate =
    (earlier.steps.any ProgressStep.isCreate || steps.any ProgressStep.isCreate)
  induction steps using List.reverseRecOn with
  | nil => simp
  | append_singleton steps step ih =>
      rw [List.foldl_append, List.foldl_cons, List.foldl_nil, any_push, ih, List.any_append,
        Bool.or_assoc]
      simp

theorem eq_of_asDelta {mutation : ProgressMutation} {change : ProgressDelta}
    (lone : mutation.asDelta = some change) : mutation = delta change := by
  obtain ⟨steps⟩ := mutation
  unfold asDelta at lone
  split at lone
  · rename_i single
    rw [Option.some.injEq] at lone
    rw [delta, ← lone]
    exact congrArg mk single
  · simp at lone

end ProgressMutation
end Intake
