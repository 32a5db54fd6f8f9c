import Intake.Proofs.Dispatch.Step
import Mathlib.Data.List.Nodup

/-!
# Consistency of the table

The table, the line of keys that wait, the rejected keys and the flushes in progress are kept by
steps of several kinds, each of which changes only some of them.  `Drain.Consistent` says how they
belong together, and `Drain.Consistent.step` that every step keeps it.
-/

namespace Intake
namespace Dispatch

namespace Table

variable {Key Mutation : Type} [DecidableEq Key]

theorem isWaiting_insert {table : Table Key Mutation} {key other : Key} {slot : Slot Mutation}
    {ready dropped : List Key} {closed : Bool} :
    IsWaiting ⟨table.states.insert key slot, ready, dropped, closed⟩ other ↔
      if key = other then ∃ mutation, slot = .waiting mutation else table.IsWaiting other := by
  unfold IsWaiting
  simp only [KeyMap.get?_insert]
  split <;> simp

theorem isFlushing_insert {table : Table Key Mutation} {key other : Key} {slot : Slot Mutation}
    {ready dropped : List Key} {closed : Bool} :
    IsFlushing ⟨table.states.insert key slot, ready, dropped, closed⟩ other ↔
      if key = other then ∃ next, slot = .flushing next else table.IsFlushing other := by
  unfold IsFlushing
  simp only [KeyMap.get?_insert]
  split <;> simp

theorem not_isWaiting_of_isFlushing {table : Table Key Mutation} {key : Key}
    (flushing : table.IsFlushing key) : ¬ table.IsWaiting key := by
  obtain ⟨next, held⟩ := flushing
  rintro ⟨mutation, waiting⟩
  simp [held] at waiting

/-- What a table gives when the flush of one of its keys is over. -/
theorem finish_of_flushing {table : Table Key Mutation} {key : Key} {next : Option Mutation} :
    table.states.get? key = some (.flushing next) → ∀ verdict, table.finish key verdict =
      match verdict, next with
      | .persisted, some mutation =>
          (.requeued,
            { table with
              states := (table.states.erase key).insert key (.waiting mutation)
              ready := table.ready ++ [key] })
      | .persisted, none => (.idle, { table with states := table.states.erase key })
      | .rejected _, _ =>
          (.idle,
            { table with states := table.states.erase key, dropped := key :: table.dropped })
      | .abandoned _, _ => (.idle, { table with states := table.states.erase key }) := by
  intro held verdict
  unfold finish
  cases verdict <;> cases next <;> simp [held]

end Table

namespace Slot

variable {Mutation : Type} [Mergeable Mutation]

theorem absorb_isWaiting {slot : Slot Mutation} {mutation : Mutation} :
    (∃ merged, slot.absorb mutation = .waiting merged) ↔ ∃ earlier, slot = .waiting earlier := by
  match slot with
  | .waiting _ | .flushing none | .flushing (some _) => simp [absorb]

theorem absorb_isFlushing {slot : Slot Mutation} {mutation : Mutation} :
    (∃ next, slot.absorb mutation = .flushing next) ↔ ∃ earlier, slot = .flushing earlier := by
  match slot with
  | .waiting _ | .flushing none | .flushing (some _) => simp [absorb]

end Slot

namespace Drain

variable {Key Mutation : Type} [DecidableEq Key]

/-- The table, the line of waiting keys, the rejected keys and the flushes belong together. -/
structure Consistent (drain : Drain Key Mutation) : Prop where
  /-- No key stands in the line twice. -/
  ready_nodup : drain.table.ready.Nodup
  /-- The line holds exactly the keys that wait. -/
  mem_ready : ∀ key, key ∈ drain.table.ready ↔ drain.table.IsWaiting key
  /-- No key has two flushes. -/
  flushes_nodup : (drain.flushes.map Flush.key).Nodup
  /-- The flushes are those of the keys that are being flushed. -/
  mem_flushes : ∀ key, key ∈ drain.flushes.map Flush.key ↔ drain.table.IsFlushing key
  /-- A rejected key has no entry. -/
  dropped_absent : ∀ key ∈ drain.table.dropped, drain.table.states.get? key = none

namespace Consistent

variable {drain : Drain Key Mutation}

theorem initial : (Drain.initial : Drain Key Mutation).Consistent where
  ready_nodup := List.nodup_nil
  mem_ready := by simp [Drain.initial, Table.empty, Table.IsWaiting]
  flushes_nodup := List.nodup_nil
  mem_flushes := by simp [Drain.initial, Table.empty, Table.IsFlushing]
  dropped_absent := by simp [Drain.initial, Table.empty]

/-- Steps that leave the table and the keys of the flushes alone keep consistency. -/
theorem of_same {next : Drain Key Mutation} (consistent : drain.Consistent)
    (table : next.table = drain.table)
    (keys : next.flushes.map Flush.key = drain.flushes.map Flush.key) : next.Consistent where
  ready_nodup := by rw [table]; exact consistent.ready_nodup
  mem_ready := by rw [table]; exact consistent.mem_ready
  flushes_nodup := by rw [keys]; exact consistent.flushes_nodup
  mem_flushes := by rw [keys, table]; exact consistent.mem_flushes
  dropped_absent := by rw [table]; exact consistent.dropped_absent

/-- The key that is found first stands first in the line. -/
theorem ready_of_firstWaiting (consistent : drain.Consistent) {key : Key} {mutation : Mutation}
    {rest : List Key}
    (found : Table.firstWaiting drain.table.states drain.table.ready =
      (some (key, mutation), rest)) :
    drain.table.ready = key :: rest ∧
      drain.table.states.get? key = some (.waiting mutation) := by
  obtain ⟨held, skipped, line, idle⟩ := Table.firstWaiting_eq_some found
  cases skipped with
  | nil => exact ⟨line, held⟩
  | cons other later =>
      have member : other ∈ drain.table.ready := by simp [line]
      obtain ⟨earlier, waiting⟩ := (consistent.mem_ready other).mp member
      exact absurd waiting (idle other (List.mem_cons_self ..) earlier)

/-- A line in which nobody waits is empty. -/
theorem ready_eq_nil (consistent : drain.Consistent)
    (idle : ∀ key ∈ drain.table.ready, ¬ drain.table.IsWaiting key) : drain.table.ready = [] := by
  apply List.eq_nil_iff_forall_not_mem.mpr
  intro key member
  exact idle key member ((consistent.mem_ready key).mp member)

theorem isFlushing_of_flush? (consistent : drain.Consistent) {key : Key}
    {flush : Flush Key Mutation} (held : drain.flush? key = some flush) :
    drain.table.IsFlushing key :=
  (consistent.mem_flushes key).mp (mem_keys_of_flush? held)

theorem enqueue (consistent : drain.Consistent) {key : Key} {mutation : Mutation}
    (welcome : key ∉ drain.table.dropped) (idle : drain.table.states.get? key = none)
    {permit : Bool} :
    ({ drain with
        table :=
          { drain.table with
            states := drain.table.states.insert key (.waiting mutation)
            ready := drain.table.ready ++ [key] }
        permit } : Drain Key Mutation).Consistent := by
  have notReady : key ∉ drain.table.ready := by
    rw [consistent.mem_ready]
    rintro ⟨earlier, held⟩
    simp [idle] at held
  have notFlushing : ¬ drain.table.IsFlushing key := by
    rintro ⟨next, held⟩
    simp [idle] at held
  constructor
  · simpa using List.Nodup.concat notReady consistent.ready_nodup
  · intro other
    rw [Table.isWaiting_insert, List.mem_append, List.mem_singleton, consistent.mem_ready]
    by_cases same : key = other
    · simp [same]
    · simp [same, Ne.symm same]
  · exact consistent.flushes_nodup
  · intro other
    rw [Table.isFlushing_insert, consistent.mem_flushes]
    by_cases same : key = other
    · subst same
      simp [notFlushing]
    · simp [same]
  · intro other member
    have different : key ≠ other := fun same => welcome (same ▸ member)
    simpa [KeyMap.get?_insert, different] using consistent.dropped_absent other member

theorem join [Mergeable Mutation] (consistent : drain.Consistent) {key : Key}
    {mutation : Mutation} {slot : Slot Mutation}
    (held : drain.table.states.get? key = some slot) :
    ({ drain with
        table :=
          { drain.table with
            states := drain.table.states.insert key (slot.absorb mutation) } } :
      Drain Key Mutation).Consistent := by
  constructor
  · exact consistent.ready_nodup
  · intro other
    rw [Table.isWaiting_insert, Slot.absorb_isWaiting, consistent.mem_ready]
    by_cases same : key = other
    · subst same
      simp [Table.IsWaiting, held]
    · simp [same]
  · exact consistent.flushes_nodup
  · intro other
    rw [Table.isFlushing_insert, Slot.absorb_isFlushing, consistent.mem_flushes]
    by_cases same : key = other
    · subst same
      simp [Table.IsFlushing, held]
    · simp [same]
  · intro other member
    have absent := consistent.dropped_absent other member
    have different : key ≠ other := by
      rintro rfl
      simp [absent] at held
    simpa [KeyMap.get?_insert, different] using absent

theorem start (consistent : drain.Consistent) {key : Key} {mutation : Mutation}
    {rest : List Key} (line : drain.table.ready = key :: rest)
    (held : drain.table.states.get? key = some (.waiting mutation)) :
    ({ drain with
        table :=
          { drain.table with
            states := drain.table.states.insert key (.flushing none), ready := rest }
        flushes := drain.flushes ++ [⟨key, mutation, 0, .due⟩] } :
      Drain Key Mutation).Consistent := by
  have nodup := consistent.ready_nodup
  rw [line, List.nodup_cons] at nodup
  have idle : key ∉ drain.flushes.map Flush.key := by
    rw [consistent.mem_flushes]
    rintro ⟨next, flushing⟩
    simp [held] at flushing
  constructor
  · exact nodup.2
  · intro other
    rw [Table.isWaiting_insert]
    by_cases same : key = other
    · subst same
      simpa using nodup.1
    · have member := consistent.mem_ready other
      rw [line, List.mem_cons] at member
      simpa [same, Ne.symm same] using member
  · simpa using List.Nodup.concat idle consistent.flushes_nodup
  · intro other
    rw [Table.isFlushing_insert, List.map_append, List.mem_append, consistent.mem_flushes]
    by_cases same : key = other
    · simp [same]
    · simp [same, Ne.symm same]
  · intro other member
    have absent := consistent.dropped_absent other member
    have different : key ≠ other := by
      rintro rfl
      simp [absent] at held
    simpa [KeyMap.get?_insert, different] using absent

/-- The keys of the flushes without those of one key. -/
private theorem keys_filter (flushes : List (Flush Key Mutation)) (key : Key) :
    (flushes.filter (·.key ≠ key)).map Flush.key = (flushes.map Flush.key).filter (· ≠ key) := by
  rw [List.filter_map]
  rfl

private theorem release (consistent : drain.Consistent) {key : Key}
    (flushing : drain.table.IsFlushing key) {dropped : List Key}
    (barred : ∀ other ∈ dropped, other = key ∨ other ∈ drain.table.dropped)
    {stage : Stage} {permit : Bool} {waiters : KeyMap Nat Waiter} :
    ({ drain with
        table := { drain.table with states := drain.table.states.erase key, dropped }
        stage, permit, waiters
        flushes := drain.flushes.filter (·.key ≠ key) } : Drain Key Mutation).Consistent := by
  constructor
  · exact consistent.ready_nodup
  · intro other
    rw [consistent.mem_ready]
    unfold Table.IsWaiting
    by_cases same : key = other
    · subst same
      have busy := Table.not_isWaiting_of_isFlushing flushing
      unfold Table.IsWaiting at busy
      simpa using busy
    · simp [KeyMap.get?_erase, same]
  · rw [keys_filter]
    exact consistent.flushes_nodup.filter _
  · intro other
    rw [keys_filter, List.mem_filter, consistent.mem_flushes]
    unfold Table.IsFlushing
    by_cases same : key = other
    · simp [same]
    · simp [KeyMap.get?_erase, same, Ne.symm same]
  · intro other member
    rw [KeyMap.get?_erase]
    rcases barred other member with rfl | earlier
    · simp
    · simp [consistent.dropped_absent other earlier]

private theorem requeue (consistent : drain.Consistent) {key : Key} {mutation : Mutation}
    (flushing : drain.table.IsFlushing key)
    {stage : Stage} {permit : Bool} {waiters : KeyMap Nat Waiter} :
    ({ drain with
        table :=
          { drain.table with
            states := (drain.table.states.erase key).insert key (.waiting mutation)
            ready := drain.table.ready ++ [key] }
        stage, permit, waiters
        flushes := drain.flushes.filter (·.key ≠ key) } : Drain Key Mutation).Consistent := by
  have welcome : key ∉ drain.table.dropped := by
    intro barred
    obtain ⟨next, held⟩ := flushing
    simp [consistent.dropped_absent key barred] at held
  have released : ({ drain with
      table := { drain.table with states := drain.table.states.erase key }
      stage, permit, waiters
      flushes := drain.flushes.filter (·.key ≠ key) } : Drain Key Mutation).Consistent :=
    consistent.release flushing fun _ => Or.inr
  exact released.enqueue welcome (KeyMap.get?_erase_self ..)

theorem collect (consistent : drain.Consistent) {key : Key} (flushing : drain.table.IsFlushing key)
    (verdict : Verdict) : (drain.collect key verdict).1.Consistent := by
  have flushing' := flushing
  obtain ⟨next, held⟩ := flushing'
  have finished := Table.finish_of_flushing held verdict
  unfold Drain.collect
  rw [finished]
  match verdict, next with
  | .persisted, some mutation => exact consistent.requeue flushing
  | .persisted, none => exact consistent.release flushing fun _ => Or.inr
  | .rejected _, _ =>
      exact consistent.release flushing fun other member => List.mem_cons.mp member
  | .abandoned _, _ => exact consistent.release flushing fun _ => Or.inr

/-- Every step keeps consistency. -/
theorem step [Mergeable Mutation] {limit : Nat} {action : Action Key Mutation}
    {next : Drain Key Mutation} {events : List (Event Key Mutation)}
    (consistent : drain.Consistent) (taken : Step limit drain action next events) :
    next.Consistent := by
  cases taken with
  | refuse | ignore => exact consistent
  | enqueue opened welcome idle grown =>
      subst grown
      exact consistent.enqueue welcome idle
  | join opened welcome held => exact consistent.join held
  | start filling place found =>
      obtain ⟨line, held⟩ := consistent.ready_of_firstWaiting found
      exact consistent.start line held
  | parkIdle filling place idle | exit filling place idle =>
      have empty := consistent.ready_eq_nil idle
      exact consistent.of_same (by rw [← empty]) rfl
  | call | succeed | reject | backOff | abandon | retry | giveUp =>
      exact consistent.of_same rfl (keys_setFlush ..)
  | collect parked held released =>
      rename_i verdict
      have collected := consistent.collect (consistent.isFlushing_of_flush? held) verdict
      rwa [released] at collected
  | notice =>
      exact ⟨consistent.ready_nodup, consistent.mem_ready, consistent.flushes_nodup,
        consistent.mem_flushes, consistent.dropped_absent⟩
  | cancel | parkFull | wake | enlist | find | miss | leave => exact consistent.of_same rfl rfl

end Consistent

/-- Every reachable state is consistent. -/
theorem consistent_of_run [Mergeable Mutation] {limit : Nat} {actions : List (Action Key Mutation)}
    {drain : Drain Key Mutation} {events : List (Event Key Mutation)}
    (run : Drain.initial.run? limit actions = some (drain, events)) : drain.Consistent :=
  run_induction (motive := fun _ drain _ => drain.Consistent) .initial
    (fun _ _ _ _ _ _ _ consistent taken => consistent.step taken) run

end Drain
end Dispatch
end Intake
