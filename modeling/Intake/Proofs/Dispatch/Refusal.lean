import Intake.Proofs.Dispatch.Service

/-!
# What comes of a refusal

A refusal is for good.  The flush that met it makes no further call, and when its end is taken note
of the key is dropped, with what waited behind the flush.  From then on nothing is accepted for the
key.  So nothing of a key is persisted after a refusal.
-/

namespace Intake
namespace Dispatch

namespace Standing

variable {Key Mutation : Type} [Mergeable Mutation] {key : Key} {later : Standing Mutation}
  {now : List (Event Key Mutation)}

/-- A refused flush stays as it is until its rejection is reported. -/
theorem Step.of_refused {mutation : Mutation} {failure : FlushFailure} {behind : Option Mutation}
    (taken : Step key (.flushing mutation (.over (.rejected failure)) behind) later now) :
    ((∃ behind, later = .flushing mutation (.over (.rejected failure)) behind) ∨
      .rejected key failure ∈ now) ∧ ∀ other, .answered key other .ok ∉ now := by
  cases taken with
  | rest | refuse | follow | followJoin => exact ⟨.inl ⟨_, rfl⟩, by simp⟩
  | discard => exact ⟨.inr (List.mem_singleton_self _), by simp⟩

theorem Step.of_idle (taken : Step key .idle later now) (other : Mutation) :
    .answered key other .ok ∉ now := by
  cases taken <;> simp

theorem Step.of_rejected {before : Standing Mutation} (taken : Step key before later now)
    {mutation : Mutation} (refused : .answered key mutation .rejected ∈ now) :
    ∃ failure behind, later = .flushing mutation (.over (.rejected failure)) behind := by
  cases taken with
  | reject =>
      obtain rfl : mutation = _ := by simpa using refused
      exact ⟨_, _, rfl⟩
  | _ => simp at refused

end Standing

namespace Drain

variable {Key Mutation : Type} [DecidableEq Key] {drain next final : Drain Key Mutation} {key : Key}

/-- The flush of a key was refused, or the key was dropped for it. -/
def Barred (drain : Drain Key Mutation) (key : Key) : Prop :=
  (∃ mutation failure behind,
    drain.standing key = .flushing mutation (.over (.rejected failure)) behind) ∨
      key ∈ drain.table.dropped

/-- An idle key is barred only if it was dropped. -/
theorem Barred.dropped (barred : drain.Barred key)
    (idle : drain.table.states.get? key = none) : key ∈ drain.table.dropped := by
  rcases barred with ⟨mutation, failure, behind, flushing⟩ | dropped
  · rw [standing_of_absent idle] at flushing
    simp at flushing
  · exact dropped

variable [Mergeable Mutation] {limit : Nat} {events : List (Event Key Mutation)}

/-- Nothing of a barred key is persisted, and it stays barred. -/
theorem Barred.step {action : Action Key Mutation} (barred : drain.Barred key)
    (consistent : drain.Consistent) (taken : Step limit drain action next events) :
    next.Barred key ∧ ∀ mutation, .answered key mutation .ok ∉ events := by
  have dropped := taken.mem_dropped key
  have seen := consistent.standing_step taken key
  rcases barred with ⟨mutation, failure, behind, flushing⟩ | barred
  · rw [flushing] at seen
    obtain ⟨either, silent⟩ := seen.of_refused
    refine ⟨?_, fun other member => silent other (mem_history.mpr ⟨member, rfl⟩)⟩
    rcases either with ⟨behind, still⟩ | reported
    · exact .inl ⟨mutation, failure, behind, still⟩
    · exact .inr (dropped.mpr (.inr ⟨failure, (mem_history.mp reported).1⟩))
  · rw [standing_of_absent (consistent.dropped_absent key barred)] at seen
    exact ⟨.inr (dropped.mpr (.inl barred)),
      fun other member => seen.of_idle other (mem_history.mpr ⟨member, rfl⟩)⟩

theorem Barred.run {actions : List (Action Key Mutation)} (barred : drain.Barred key)
    (consistent : drain.Consistent) (run : drain.run? limit actions = some (final, events)) :
    final.Barred key ∧ ∀ mutation, .answered key mutation .ok ∉ events := by
  have kept : final.Consistent ∧ final.Barred key ∧
      ∀ mutation, .answered key mutation .ok ∉ events := by
    refine run_induction (motive := fun _ final events => final.Consistent ∧ final.Barred key ∧
      ∀ mutation, .answered key mutation .ok ∉ events) ⟨consistent, barred, by simp⟩ ?_ run
    rintro actions middle events action next now _ ⟨consistent, barred, silent⟩ taken
    obtain ⟨after, still⟩ := barred.step consistent taken
    refine ⟨consistent.step taken, after, fun mutation member => ?_⟩
    rcases List.mem_append.mp member with earlier | later
    · exact silent mutation earlier
    · exact still mutation later
  exact kept.2

/-- A key is barred once it was refused. -/
theorem barred_of_run {actions : List (Action Key Mutation)}
    (run : Drain.initial.run? limit actions = some (drain, events)) {mutation : Mutation}
    (refused : .answered key mutation .rejected ∈ events) : drain.Barred key := by
  refine run_induction (motive := fun _ drain events =>
    .answered key mutation .rejected ∈ events → drain.Barred key) ?_ ?_ run refused
  · simp
  · intro actions drain events action next now front held taken member
    have consistent := consistent_of_run front
    rcases List.mem_append.mp member with earlier | later
    · exact ((held earlier).step consistent taken).1
    · have reported := mem_history.mpr ⟨later, rfl⟩
      obtain ⟨failure, behind, standing⟩ := (consistent.standing_step taken key).of_rejected reported
      exact .inl ⟨mutation, failure, behind, standing⟩

end Drain

namespace Service

variable {Key Mutation World : Type} [DecidableEq Key] [Mergeable Mutation]
  {writer : Writer Key Mutation World} {limit : Nat} {world : World}
  {service middle : Service Key Mutation World} {key : Key}
  {events : List (Event Key Mutation)}

theorem barred_of_run {actions : List (Action Key Mutation World)}
    (run : run? writer limit ⟨Drain.initial, world⟩ actions = some (service, events))
    {mutation : Mutation} (refused : .answered key mutation .rejected ∈ events) :
    service.drain.Barred key := by
  obtain ⟨trace, run, _⟩ := trace_of_run run
  exact Drain.barred_of_run run refused

/-- After a key was refused nothing of it is persisted. -/
theorem persisted_of_refused {front back : List (Action Key Mutation World)}
    {earlier : List (Event Key Mutation)}
    (before : run? writer limit ⟨Drain.initial, world⟩ front = some (middle, earlier))
    {mutation : Mutation} (refused : .answered key mutation .rejected ∈ earlier)
    (after : middle.run? writer limit back = some (service, events)) :
    (history key events).filterMap Event.persisted? = [] := by
  have barred := barred_of_run before refused
  obtain ⟨trace, run, _⟩ := trace_of_run after
  exact persisted_eq_nil (barred.run (consistent_of_run before) run).2

end Service
end Dispatch
end Intake
