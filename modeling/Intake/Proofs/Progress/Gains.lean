import Intake.Proofs.Progress.Replay
import Mathlib.Tactic

/-!
# What mutations add

A plain mutation only adds deltas and creates its job.  Where its sums fit it adds exactly what its
deltas say, and its last known total stays.  Mutations that are merged add what they add one after
the other, so what a list of mutations adds depends neither on its order nor on what was merged; the
total is that of the last one that knows it.
-/

namespace Intake

theorem Counter.toInt_of_add {left right sum : Int64} (added : add left right = .ok sum) :
    sum.toInt = left.toInt + right.toInt := by
  obtain ⟨fits, rfl⟩ := add_eq_ok_iff.mp added
  unfold Fits least bound at fits
  rw [Int64.toInt_add]
  exact Int.bmod_eq_of_le (by omega) (by omega)

namespace ProgressStep

/-- The step is no opaque update. -/
def IsPlain : ProgressStep → Prop
  | mutate _ => False
  | delta _ | create _ => True

/-- How many successes the step adds. -/
def successes : ProgressStep → Int
  | delta change => change.succeeded.toInt
  | _ => 0

/-- How many failures the step adds. -/
def failures : ProgressStep → Int
  | delta change => change.failed.toInt
  | _ => 0

/-- The total that the step makes known. -/
def total? : ProgressStep → Option Int64
  | create total => total
  | _ => none

end ProgressStep

namespace ProgressMutation

/-- The mutation holds no opaque update. -/
def IsPlain (mutation : ProgressMutation) : Prop := ∀ step ∈ mutation.steps, step.IsPlain

/-- How many successes the mutation adds. -/
def successes (mutation : ProgressMutation) : Int :=
  (mutation.steps.map ProgressStep.successes).sum

/-- How many failures the mutation adds. -/
def failures (mutation : ProgressMutation) : Int :=
  (mutation.steps.map ProgressStep.failures).sum

/-- The totals that the mutation makes known, in order. -/
def totals (mutation : ProgressMutation) : List Int64 :=
  mutation.steps.filterMap ProgressStep.total?

end ProgressMutation

/-! ## Rows -/

/-- A row gained what mutations add, and has the last of the totals. -/
structure JobProgress.Gained (before after : JobProgress) (added : List ProgressMutation)
    (totals : List Int64) : Prop where
  job : after.job = before.job
  succeeded : after.succeeded.toInt =
    before.succeeded.toInt + (added.map ProgressMutation.successes).sum
  failed : after.failed.toInt = before.failed.toInt + (added.map ProgressMutation.failures).sum
  total : after.total = totals.getLast?.or before.total

namespace JobProgress.Gained

variable {before middle after : JobProgress} {added more : List ProgressMutation}
  {totals known : List Int64}

theorem refl (row : JobProgress) : row.Gained row [] [] where
  job := rfl
  succeeded := by simp
  failed := by simp
  total := by simp

theorem trans (first : before.Gained middle added totals)
    (second : middle.Gained after more known) :
    before.Gained after (added ++ more) (totals ++ known) where
  job := second.job.trans first.job
  succeeded := by
    rw [second.succeeded, first.succeeded, List.map_append, List.sum_append, add_assoc]
  failed := by rw [second.failed, first.failed, List.map_append, List.sum_append, add_assoc]
  total := by
    rw [second.total, first.total, List.getLast?_append, Option.or_assoc]

/-- The order of what is added does not matter. -/
theorem perm (gained : before.Gained after added totals) (same : added.Perm more) :
    before.Gained after more totals where
  job := gained.job
  succeeded := by rw [gained.succeeded, (same.map _).sum_eq]
  failed := by rw [gained.failed, (same.map _).sum_eq]
  total := gained.total

/-- A step that does not overflow adds exactly what it says. -/
private theorem of_step {step : ProgressStep} (plain : step.IsPlain)
    (applied : step.apply before = .ok after) :
    before.Gained after [⟨[step]⟩] step.total?.toList := by
  cases step with
  | delta change =>
      obtain ⟨first, second, job, total⟩ := JobProgress.add_eq_ok_iff.mp applied
      refine ⟨job, ?_, ?_, total⟩
      · simpa [ProgressMutation.successes, ProgressStep.successes] using Counter.toInt_of_add first
      · simpa [ProgressMutation.failures, ProgressStep.failures] using Counter.toInt_of_add second
  | mutate => exact plain.elim
  | create total =>
      cases total <;> obtain rfl := Except.ok.inj applied <;>
        refine ⟨rfl, ?_, ?_, rfl⟩ <;>
        simp [ProgressMutation.successes, ProgressMutation.failures, ProgressStep.successes,
          ProgressStep.failures]

/-- A plain mutation that does not overflow adds exactly what it says. -/
theorem of_apply {mutation : ProgressMutation} (plain : mutation.IsPlain)
    (applied : mutation.apply before = .ok after) :
    before.Gained after [mutation] mutation.totals := by
  obtain ⟨steps⟩ := mutation
  induction steps generalizing before with
  | nil =>
      obtain rfl := Except.ok.inj applied
      exact ⟨rfl, by simp [ProgressMutation.successes], by simp [ProgressMutation.failures], rfl⟩
  | cons step steps ih =>
      obtain ⟨middle, first, rest⟩ := bind_eq_ok.mp applied
      have own := of_step (plain step List.mem_cons_self) first
      have others := ih (fun other member => plain other (List.mem_cons_of_mem _ member)) rest
      have both := own.trans others
      refine ⟨both.job, ?_, ?_, ?_⟩
      · simpa [ProgressMutation.successes] using both.succeeded
      · simpa [ProgressMutation.failures] using both.failed
      · rw [both.total, ProgressMutation.totals, ProgressMutation.totals, List.filterMap_cons]
        cases step.total? <;> rfl

end JobProgress.Gained

/-! ## Merging -/

/-- A mutation holds just what two others hold, one after the other. -/
structure ProgressMutation.Joins (merged earlier later : ProgressMutation) : Prop where
  successes : merged.successes = earlier.successes + later.successes
  failures : merged.failures = earlier.failures + later.failures
  totals : merged.totals = earlier.totals ++ later.totals
  plain : earlier.IsPlain → later.IsPlain → merged.IsPlain
  own : ∀ job, earlier.IsFor job → later.IsFor job → merged.IsFor job

namespace ProgressMutation.Joins

variable {merged earlier middle later : ProgressMutation}

private theorem nil (mutation : ProgressMutation) : Joins mutation mutation ⟨[]⟩ where
  successes := by simp [ProgressMutation.successes]
  failures := by simp [ProgressMutation.failures]
  totals := by simp [ProgressMutation.totals]
  plain first _ := first
  own _ first _ := first

/-- Steps one after the other. -/
private theorem append (front back : List ProgressStep) : Joins ⟨front ++ back⟩ ⟨front⟩ ⟨back⟩ where
  successes := by simp [ProgressMutation.successes]
  failures := by simp [ProgressMutation.failures]
  totals := by simp [ProgressMutation.totals]
  plain first second step member :=
    (List.mem_append.mp member).elim (first step) (second step)
  own _ first second step member :=
    (List.mem_append.mp member).elim (first step) (second step)

/-- Two deltas in one, if their counts fit. -/
private theorem plus {last next joined : ProgressDelta} (fits : last.plus? next = .ok joined) :
    Joins (delta joined) (delta last) (delta next) := by
  obtain ⟨first, second, same⟩ := ProgressDelta.plus?_eq_ok_iff.mp fits
  refine ⟨?_, ?_, rfl, ?_, ?_⟩
  · simpa [ProgressMutation.successes, delta, ProgressStep.successes] using
      Counter.toInt_of_add first
  · simpa [ProgressMutation.failures, delta, ProgressStep.failures] using
      Counter.toInt_of_add second
  · intro _ _ step member
    obtain rfl := List.mem_singleton.mp member
    trivial
  · intro job own _ step member
    obtain rfl := List.mem_singleton.mp member
    exact same.trans (own (.delta last) (List.mem_singleton_self _))

/-- What is joined behind a first step. -/
private theorem cons (first : ProgressStep) {rest back joined : List ProgressStep}
    (tail : Joins ⟨joined⟩ ⟨rest⟩ ⟨back⟩) :
    Joins ⟨first :: joined⟩ ⟨first :: rest⟩ ⟨back⟩ := by
  refine ⟨?_, ?_, ?_, ?_, ?_⟩
  · have sums := tail.successes
    simp only [ProgressMutation.successes, List.map_cons, List.sum_cons] at sums ⊢
    omega
  · have sums := tail.failures
    simp only [ProgressMutation.failures, List.map_cons, List.sum_cons] at sums ⊢
    omega
  · have known := tail.totals
    simp only [ProgressMutation.totals, List.filterMap_cons] at known ⊢
    cases first.total? <;> simp [known]
  · intro front last
    have parts := List.forall_mem_cons.mp front
    exact List.forall_mem_cons.mpr ⟨parts.1, tail.plain parts.2 last⟩
  · intro job front last
    have parts := List.forall_mem_cons.mp front
    exact List.forall_mem_cons.mpr ⟨parts.1, tail.own job parts.2 last⟩

private theorem push? {steps pushed : List ProgressStep} {step : ProgressStep}
    (fits : ProgressMutation.push? steps step = .ok pushed) :
    Joins ⟨pushed⟩ ⟨steps⟩ ⟨[step]⟩ := by
  fun_induction ProgressMutation.push? steps step generalizing pushed with
  | case1 step =>
      obtain rfl := Except.ok.inj fits
      exact append [] [step]
  | case2 last next =>
      obtain ⟨joined, counts, fits⟩ := bind_eq_ok.mp fits
      obtain rfl := Except.ok.inj fits
      exact plus counts
  | case3 last step =>
      obtain rfl := Except.ok.inj fits
      exact append [last] [step]
  | case4 first rest step _ _ ih =>
      obtain ⟨joined, counts, fits⟩ := bind_eq_ok.mp fits
      obtain rfl := Except.ok.inj fits
      exact cons first (ih counts)

/-- Mutations that are joined one after the other are joined. -/
private theorem concat {front last : List ProgressStep} (first : Joins middle earlier ⟨front⟩)
    (second : Joins merged middle ⟨last⟩) : Joins merged earlier ⟨front ++ last⟩ := by
  have parts := append front last
  refine ⟨?_, ?_, ?_, ?_, ?_⟩
  · rw [second.successes, first.successes, parts.successes, add_assoc]
  · rw [second.failures, first.failures, parts.failures, add_assoc]
  · rw [second.totals, first.totals, parts.totals, List.append_assoc]
  · intro before plain
    have halves := List.forall_mem_append.mp plain
    exact second.plain (first.plain before halves.1) halves.2
  · intro job before own
    have halves := List.forall_mem_append.mp own
    exact second.own job (first.own job before halves.1) halves.2

private theorem foldlM_push? {steps joined : List ProgressStep}
    (counts : steps.foldlM ProgressMutation.push? earlier.steps = .ok joined) :
    Joins ⟨joined⟩ earlier ⟨steps⟩ := by
  induction steps using List.reverseRecOn generalizing joined with
  | nil =>
      obtain rfl := Except.ok.inj counts
      exact nil earlier
  | append_singleton front step ih =>
      rw [List.foldlM_append] at counts
      obtain ⟨middle, before, last⟩ := bind_eq_ok.mp counts
      rw [List.foldlM_cons] at last
      obtain ⟨after, pushed, last⟩ := bind_eq_ok.mp last
      obtain rfl := Except.ok.inj last
      exact concat (ih before) (push? pushed)

/-- Merging joins, if all counts fit. -/
theorem of_merge? (fits : earlier.merge? later = .ok merged) : Joins merged earlier later := by
  obtain ⟨joined, counts, fits⟩ := bind_eq_ok.mp fits
  obtain rfl := Except.ok.inj fits
  exact foldlM_push? counts

end ProgressMutation.Joins

/-- Neighbours are merged, one pair after the other. -/
inductive Rebatched : List ProgressMutation → List ProgressMutation → Prop where
  | refl (mutations : List ProgressMutation) : Rebatched mutations mutations
  | merge {front back mutations : List ProgressMutation}
      {earlier later merged : ProgressMutation} (fits : earlier.merge? later = .ok merged)
      (rest : Rebatched (front ++ merged :: back) mutations) :
      Rebatched (front ++ earlier :: later :: back) mutations

namespace Rebatched

variable {mutations batches : List ProgressMutation}

/-- What is merged adds what its parts add. -/
theorem sums (merging : Rebatched mutations batches) :
    (batches.map ProgressMutation.successes).sum = (mutations.map ProgressMutation.successes).sum ∧
      (batches.map ProgressMutation.failures).sum = (mutations.map ProgressMutation.failures).sum ∧
        batches.flatMap ProgressMutation.totals = mutations.flatMap ProgressMutation.totals := by
  induction merging with
  | refl => exact ⟨rfl, rfl, rfl⟩
  | merge fits rest ih =>
      have joins := ProgressMutation.Joins.of_merge? fits
      obtain ⟨successes, failures, totals⟩ := ih
      refine ⟨?_, ?_, ?_⟩
      · simp [successes, joins.successes, add_assoc]
      · simp [failures, joins.failures, add_assoc]
      · simp [totals, joins.totals]

/-- What is merged is plain if its parts are, and for their job. -/
theorem fit (merging : Rebatched mutations batches) {job : Uuid}
    (parts : ∀ mutation ∈ mutations, mutation.IsPlain ∧ mutation.IsFor job) :
    ∀ mutation ∈ batches, mutation.IsPlain ∧ mutation.IsFor job := by
  induction merging with
  | refl => exact parts
  | merge fits rest ih =>
      have joins := ProgressMutation.Joins.of_merge? fits
      apply ih
      simp only [List.mem_append, List.mem_cons] at parts ⊢
      rintro mutation (before | rfl | behind)
      · exact parts mutation (.inl before)
      · have first := parts _ (.inr (.inl rfl))
        have second := parts _ (.inr (.inr (.inl rfl)))
        exact ⟨joins.plain first.1 second.1, joins.own job first.2 second.2⟩
      · exact parts mutation (.inr (.inr (.inr behind)))

theorem eq_nil (merging : Rebatched mutations batches) (none : mutations = []) :
    batches = [] := by
  cases merging with
  | refl => exact none
  | merge => simp at none

end Rebatched
end Intake
