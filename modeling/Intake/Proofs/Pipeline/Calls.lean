import Intake.Proofs.Pipeline.Views

/-!
# Calls that are refused

A refusal that one of the dispatchers reports comes of a call of that dispatcher which reaches the
store, and each such call that has a final answer is reported as refused.  So a job is refused
exactly if one of its calls has a final answer.
-/

namespace Intake

open Dispatch

namespace Office

/-- What the dispatcher of progress does of its own. -/
def Action.progress? : Action → Option (Service.Action Uuid ProgressMutation Store)
  | progress does _ => some does
  | _ => none

/-- What the dispatcher of the journal does of its own. -/
def Action.journal? : Action → Option (Service.Action Uuid JournalBatch Store)
  | journal does _ => some does
  | _ => none

theorem eq_of_progress? {action : Action} {does : Service.Action Uuid ProgressMutation Store}
    (given : action.progress? = some does) : ∃ own, action = .progress does own := by
  cases action with
  | progress other own =>
      obtain rfl := Option.some.inj given
      exact ⟨own, rfl⟩
  | chunk | record | hand | journal | outage => simp [Action.progress?] at given

theorem eq_of_journal? {action : Action} {does : Service.Action Uuid JournalBatch Store}
    (given : action.journal? = some does) : ∃ own, action = .journal does own := by
  cases action with
  | journal other own =>
      obtain rfl := Option.some.inj given
      exact ⟨own, rfl⟩
  | chunk | record | hand | progress | outage => simp [Action.journal?] at given

section Seen

variable {Mutation : Type} [Mergeable Mutation]

/-- What a step is to one of the dispatchers: it acts of its own, or something is submitted to it,
or it rests. -/
inductive Seen (view : View Mutation) (own? : Action → Option (Service.Action Uuid Mutation Store))
    (limits : Desk → Nat) (office : Office) (action : Action) (next : Office)
    (reports : List Report) : Prop where
  | acts {does : Service.Action Uuid Mutation Store} (own : own? action = some does)
      (acts : Acts view limits office next reports does)
  | submits {middle : Office} {job : Uuid} {mutation : Mutation} (foreign : own? action = none)
      (acts : Acts view limits middle next reports (.drive (.submit job mutation)))
  | rests (foreign : own? action = none) (silent : reports.filterMap view.event? = [])

variable {view : View Mutation} {own? : Action → Option (Service.Action Uuid Mutation Store)}
  {limits : Desk → Nat} {before office next : Office} {action : Action} {reports : List Report}
  {job : Uuid}

/-- A refusal comes of a call that reaches the store and has a final answer. -/
theorem Seen.of_refused (seen : Seen view own? limits office action next reports)
    {mutation : Mutation}
    (refused : .answered job mutation .rejected ∈ reports.filterMap view.event?) :
    own? action = some (.write job) ∧ ∃ failures failure store,
      (view.drain office).flush? job = some ⟨job, mutation, failures, .calling⟩ ∧
      view.writer office.store job mutation = some (.error failure, store) ∧
      failure.isRetryable = false := by
  cases seen with
  | acts own acts =>
      obtain ⟨rfl, _, call⟩ := (Service.Step.of_step? acts.step).of_rejected refused
      exact ⟨own, call⟩
  | submits _ acts =>
      have impossible := ((Service.Step.of_step? acts.step).of_rejected refused).1
      simp at impossible
  | rests _ silent =>
      rw [silent] at refused
      simp at refused

/-- A call that reaches the store, and what comes of it. -/
theorem Seen.of_write (seen : Seen view own? limits office action next reports)
    (write : own? action = some (.write job)) :
    ∃ mutation failures result store,
      (view.drain office).flush? job = some ⟨job, mutation, failures, .calling⟩ ∧
      view.writer office.store job mutation = some (result, store) ∧
      ∀ failure, result = .error failure → failure.isRetryable = false →
        .answered job mutation .rejected ∈ reports.filterMap view.event? := by
  cases seen with
  | acts own acts =>
      obtain rfl := Option.some.inj (own.symm.trans write)
      exact (Service.Step.of_step? acts.step).of_write
  | submits foreign | rests foreign => simp [foreign] at write

/-- A job is not refused exactly if no call of it that reaches the store has a final answer. -/
theorem allowed_iff_calls
    (sees : ∀ {office next action reports}, Step limits office action next reports →
      Seen view own? limits office action next reports)
    (run : run? limits before actions = some (office, reports)) :
    (∀ mutation, .answered job mutation .rejected ∉ reports.filterMap view.event?) ↔
      ∀ split : Split (step? limits) before actions office reports,
        own? split.action = some (.write job) → ∀ mutation failures failure store,
          (view.drain split.middle).flush? job = some ⟨job, mutation, failures, .calling⟩ →
            view.writer split.middle.store job mutation = some (.error failure, store) →
              failure.isRetryable = true := by
  constructor
  · intro allowed split write mutation failures failure store held written
    obtain ⟨pending, _, _, _, calling, answered, refusal⟩ :=
      (sees (.of_step? split.taken)).of_write write
    obtain ⟨_, rfl, _⟩ := Flush.mk.inj (Option.some.inj (held.symm.trans calling))
    obtain ⟨rfl, _⟩ := Prod.mk.inj (Option.some.inj (written.symm.trans answered))
    by_contra final
    have refused := refusal failure rfl (Bool.eq_false_iff.mpr final)
    refine allowed mutation ?_
    rw [split.reports_eq, List.filterMap_append, List.filterMap_append]
    exact List.mem_append_right _ (List.mem_append_left _ refused)
  · intro fine mutation refused
    obtain ⟨report, member, seen⟩ := List.mem_filterMap.mp refused
    obtain ⟨split, _, report, among, told⟩ := exists_first
      (p := fun report => view.event? report = some (.answered job mutation .rejected)) run
      ⟨report, member, seen⟩
    have now := List.mem_filterMap.mpr ⟨report, among, told⟩
    obtain ⟨write, failures, failure, store, held, written, final⟩ :=
      (sees (.of_step? split.taken)).of_refused now
    have retryable := fine split write mutation failures failure store held written
    simp [final] at retryable

end Seen

section Steps

variable {limits : Desk → Nat} {office next : Office} {action : Action} {reports : List Report}

theorem Step.progress_seen (taken : Step limits office action next reports) :
    Seen progressView Action.progress? limits office action next reports := by
  cases taken with
  | signal raised =>
      refine .rests ?_ rfl
      cases action <;> simp_all [Action.isSignal, Action.progress?]
  | hand held first submitted =>
      rename_i position handover earlier later
      cases handover with
      | progress job mutation => exact .submits rfl (acts_of_onProgress submitted)
      | journal job batch => exact .rests rfl (rests_of_onJournal submitted (by simp)).silent
  | progress acted => exact .acts rfl (acts_of_onProgress acted)
  | journal acted =>
      rename_i does own
      exact .rests rfl (rests_of_onJournal acted (ne_change_of_own own)).silent
  | outage => exact .rests rfl rfl

theorem Step.journal_seen (taken : Step limits office action next reports) :
    Seen journalView Action.journal? limits office action next reports := by
  cases taken with
  | signal raised =>
      refine .rests ?_ rfl
      cases action <;> simp_all [Action.isSignal, Action.journal?]
  | hand held first submitted =>
      rename_i position handover earlier later
      cases handover with
      | progress job mutation => exact .rests rfl (rests_of_onProgress submitted (by simp)).silent
      | journal job batch => exact .submits rfl (acts_of_onJournal submitted)
  | progress acted =>
      rename_i does own
      exact .rests rfl (rests_of_onProgress acted (ne_change_of_own own)).silent
  | journal acted => exact .acts rfl (acts_of_onJournal acted)
  | outage => exact .rests rfl rfl

end Steps

end Office
end Intake
