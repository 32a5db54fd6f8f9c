import Intake.Proofs.Dispatch.Refusal
import Intake.Proofs.Writes

/-!
# Rows of jobs

A dispatcher of progress writes to a store that others use too.  Whatever the interleaving, the row
of a job is the replay of the mutations of that job that were persisted.  A job with a row, or whose
first mutation creates it, is never rejected, so once it is idle its row is the replay of all that
was submitted for it.
-/

namespace Intake

open Dispatch

/-- The progress of a job in a store after mutations of it were persisted. -/
def replayed (start : Store) (job : Uuid) (persisted : List ProgressMutation) :
    Option JobProgress :=
  if persisted = [] then start.progress.get? job
  else some (persisted.foldl ProgressMutation.act (start.origin job))

theorem replayed_concat (start : Store) (job : Uuid) (persisted : List ProgressMutation)
    (mutation : ProgressMutation) :
    replayed start job (persisted ++ [mutation]) =
      some (ProgressMutation.act ((replayed start job persisted).getD (.start job none))
        mutation) := by
  unfold replayed
  cases persisted with
  | nil => simp [Store.origin]
  | cons first later => simp

section Service

variable {limit : Nat} {start : Store} {service : Service Uuid ProgressMutation Store}
  {actions : List (Service.Action Uuid ProgressMutation Store)}
  {events : List (Event Uuid ProgressMutation)} {job : Uuid}

/-- Every mutation is submitted for its own job. -/
def SubmitsOwn (actions : List (Service.Action Uuid ProgressMutation Store)) : Prop :=
  ∀ job, ∀ mutation ∈ actions.filterMap (Service.Action.offer? job), mutation.IsFor job

/-- Nobody else writes the row of a job. -/
def LeavesRow (job : Uuid) (actions : List (Service.Action Uuid ProgressMutation Store)) : Prop :=
  ∀ update, .change update ∈ actions →
    ∀ store : Store, (update store).progress.get? job = store.progress.get? job

theorem SubmitsOwn.front {more : List (Service.Action Uuid ProgressMutation Store)}
    (own : SubmitsOwn (actions ++ more)) : SubmitsOwn actions := by
  intro job mutation member
  apply own job mutation
  rw [List.filterMap_append]
  exact List.mem_append_left _ member

theorem LeavesRow.front {more : List (Service.Action Uuid ProgressMutation Store)}
    (alone : LeavesRow job (actions ++ more)) : LeavesRow job actions :=
  fun update member => alone update (List.mem_append_left _ member)

/-- A call that reaches the store writes a mutation whose deltas are for its job. -/
theorem write_of_run (own : SubmitsOwn actions)
    (run : Service.run? Store.progressWriter limit ⟨Drain.initial, start⟩ actions =
      some (service, events))
    {mutation : ProgressMutation} {failures : Nat}
    (held : service.drain.flush? job = some ⟨job, mutation, failures, .calling⟩)
    {result : Except FlushFailure Unit} {after : Store}
    (written : Store.progressWriter service.world job mutation = some (result, after)) :
    Store.ProgressWrite service.world job mutation result after :=
  .of_writer (Service.call_of_run ProgressMutation.isFor_merge run (own job) held) written

private theorem row_of_write (own : SubmitsOwn actions)
    (run : Service.run? Store.progressWriter limit ⟨Drain.initial, start⟩ actions =
      some (service, events))
    (before : service.world.progress.get? job =
      replayed start job ((history job events).filterMap Event.persisted?))
    {other : Uuid} {mutation : ProgressMutation} {failures : Nat}
    (held : service.drain.flush? other = some ⟨other, mutation, failures, .calling⟩)
    {result : Except FlushFailure Unit} {after : Store}
    (written : Store.progressWriter service.world other mutation = some (result, after))
    {next : Drain Uuid ProgressMutation} {now : List (Event Uuid ProgressMutation)}
    (taken : service.drain.step? limit (.answer other result) = some (next, now)) :
    after.progress.get? job =
      replayed start job ((history job events).filterMap Event.persisted? ++
        (history job now).filterMap Event.persisted?) := by
  rw [(Drain.Step.of_step? taken).persisted_of_answer held job]
  cases write_of_run own run held written with
  | away absent => simpa using before
  | unknown present missing creates progress => simpa [progress] using before
  | done present known progress =>
      rw [progress job]
      by_cases same : other = job
      · subst same
        simp only [if_true, replayed_concat, ← before, Store.origin]
      · simpa [same] using before

/-- The row of a job is the replay of its mutations that were persisted. -/
theorem row_of_run (own : SubmitsOwn actions) (alone : LeavesRow job actions)
    (run : Service.run? Store.progressWriter limit ⟨Drain.initial, start⟩ actions =
      some (service, events)) :
    service.world.progress.get? job =
      replayed start job ((history job events).filterMap Event.persisted?) := by
  refine runOf_induction (motive := fun actions (service : Service _ _ _) events =>
    SubmitsOwn actions → LeavesRow job actions → service.world.progress.get? job =
      replayed start job ((history job events).filterMap Event.persisted?)) ?_ ?_ run own alone
  · intro _ _
    rfl
  · intro actions service events action next now front held taken own alone
    have before := held own.front alone.front
    rw [history_append, List.filterMap_append]
    cases Service.Step.of_step? taken with
    | drive free taken =>
        have failed := (Drain.Step.of_step? taken).tally_of_free free job
        rw [persisted_eq_nil fun mutation => (failed mutation).1, List.append_nil]
        exact before
    | write calling written taken =>
        exact row_of_write own.front front before calling written taken
    | change =>
        rename_i update
        have kept := alone update (by simp) service.world
        simpa [kept, history] using before

/-- A job that has no row at the start is created by its first mutation. -/
def Announced (start : Store) (job : Uuid)
    (actions : List (Service.Action Uuid ProgressMutation Store)) : Prop :=
  start.progress.get? job = none →
    ∀ first ∈ (actions.filterMap (Service.Action.offer? job)).head?, first.createsJob = true

theorem Announced.front {more : List (Service.Action Uuid ProgressMutation Store)}
    (announced : Announced start job (actions ++ more)) : Announced start job actions := by
  intro missing first member
  apply announced missing
  rw [List.filterMap_append]
  cases offers : actions.filterMap (Service.Action.offer? job) with
  | nil => simp [offers] at member
  | cons other later => simpa [offers] using member

/-- A job without a row had none at the start, and nothing of it was persisted. -/
theorem unwritten_of_missing (own : SubmitsOwn actions) (alone : LeavesRow job actions)
    (run : Service.run? Store.progressWriter limit ⟨Drain.initial, start⟩ actions =
      some (service, events))
    (missing : service.world.progress.get? job = none) :
    start.progress.get? job = none ∧ (history job events).filterMap Event.persisted? = [] := by
  have row := row_of_run own alone run
  rw [missing] at row
  unfold replayed at row
  split at row
  · rename_i empty
    exact ⟨row.symm, empty⟩
  · simp at row

/-- The call of a job without a row creates the row, as it is the first call of that job. -/
private theorem creates_of_call (own : SubmitsOwn actions) (alone : LeavesRow job actions)
    (announced : Announced start job actions) (going : .drive .cancel ∉ actions)
    (run : Service.run? Store.progressWriter limit ⟨Drain.initial, start⟩ actions =
      some (service, events))
    (allowed : ∀ mutation, .answered job mutation .rejected ∉ events)
    {mutation : ProgressMutation} {failures : Nat}
    (held : service.drain.flush? job = some ⟨job, mutation, failures, .calling⟩)
    (missing : service.world.progress.get? job = none) : mutation.createsJob = true := by
  -- The row is missing, so nothing of the job was persisted and this call is of its first block.
  have unwritten := unwritten_of_missing own alone run missing
  have running := Service.running_of_run run going
  obtain ⟨safe, taken⟩ :=
    Service.safe_of_run run allowed (running.abandoned job) (running.refused job)
  obtain ⟨ledger, accounts⟩ := Service.ledger_of_run run job
  obtain ⟨next, flushing⟩ := (Service.consistent_of_run run).isFlushing_of_flush? held
  rw [Drain.standing_of_flushing flushing held] at accounts
  obtain ⟨block, earlier, flying, rfl⟩ := accounts.flight_of_flushing (by simp)
  have settled := accounts.settled_eq_nil safe unwritten.2
  have first : (actions.filterMap (Service.Action.offer? job)).head? = some block.first := by
    rw [← taken, accounts.taken, Ledger.mutations, settled, flying]
    rfl
  have creates := announced unwritten.1 block.first first
  refine Block.merged_of_first (ProgressMutation.createsJob · = true) ?_ creates
  intro earlier later holds
  rw [ProgressMutation.createsJob_merge, holds, Bool.true_or]

/-- The first refusal of a job comes of a call that finds no row and creates none. -/
private theorem exists_refused_call (own : SubmitsOwn actions)
    (run : Service.run? Store.progressWriter limit ⟨Drain.initial, start⟩ actions =
      some (service, events)) {mutation : ProgressMutation}
    (refused : .answered job mutation .rejected ∈ events) :
    ∃ split : Split (Service.step? Store.progressWriter limit) ⟨Drain.initial, start⟩ actions
        service events,
      (∀ other, .answered job other .rejected ∉ split.earlier) ∧
      ∃ pending failures, split.now = [.answered job pending .rejected] ∧
        split.middle.drain.flush? job = some ⟨job, pending, failures, .calling⟩ ∧
        split.middle.world.progress.get? job = none ∧ pending.createsJob = false := by
  obtain ⟨split, allowed, event, among, pending, rfl⟩ :=
    exists_first (p := fun event => ∃ pending, event = .answered job pending .rejected) run
      ⟨_, refused, mutation, rfl⟩
  refine ⟨split, fun other member => allowed _ member ⟨other, rfl⟩, pending, ?_⟩
  obtain ⟨front, action, back, middle, earlier, next, now, later, rfl, rfl, before, taken, _⟩ := split
  obtain ⟨_, only, failures, failure, store, held, written, final⟩ :=
    (Service.Step.of_step? taken).of_rejected among
  refine ⟨failures, only, held, ?_⟩
  cases write_of_run own.front before held written with
  | away => simp at final
  | unknown _ missing creates => exact ⟨missing, creates⟩

/-- No call of a job is refused if the job had a row or is created by its first mutation. -/
theorem allowed_of_run (own : SubmitsOwn actions) (alone : LeavesRow job actions)
    (announced : Announced start job actions) (going : .drive .cancel ∉ actions)
    (run : Service.run? Store.progressWriter limit ⟨Drain.initial, start⟩ actions =
      some (service, events)) :
    ∀ mutation, .answered job mutation .rejected ∉ events := by
  intro mutation refused
  obtain ⟨split, allowed, pending, failures, _, held, missing, creates⟩ :=
    exists_refused_call own run refused
  obtain ⟨front, action, back, middle, earlier, next, now, later, rfl, rfl, before, taken, _⟩ := split
  have still : .drive .cancel ∉ front := fun member => going (List.mem_append_left _ member)
  have created := creates_of_call own.front alone.front announced.front still before allowed held
    missing
  simp [creates] at created

/-- The row of an idle job that was never refused is the replay of all mutations that were submitted
for the job. -/
theorem row_of_allowed (own : SubmitsOwn actions) (alone : LeavesRow job actions)
    (going : .drive .cancel ∉ actions)
    (run : Service.run? Store.progressWriter limit ⟨Drain.initial, start⟩ actions =
      some (service, events))
    (allowed : ∀ mutation, .answered job mutation .rejected ∉ events)
    (idle : service.drain.table.states.get? job = none)
    (begun : start.progress.get? job ≠ none ∨
      actions.filterMap (Service.Action.offer? job) ≠ []) :
    service.world.progress.get? job =
      some ((actions.filterMap (Service.Action.offer? job)).foldl ProgressMutation.act
        (start.origin job)) := by
  have running := Service.running_of_run run going
  obtain ⟨safe, taken⟩ :=
    Service.safe_of_run run allowed (running.abandoned job) (running.refused job)
  obtain ⟨ledger, accounts⟩ := Service.ledger_of_run run job
  rw [Drain.standing_of_absent idle] at accounts
  obtain ⟨blocks, persisted, offered⟩ := accounts.replays safe
  have calls : (history job events).filterMap Event.persisted? = blocks.map Block.merged := by
    simpa [Standing.flight?, Standing.queued?] using persisted
  rw [row_of_run own alone run, calls, ← taken, offered,
    ← Block.replay ProgressMutation.act ProgressMutation.act_merge]
  unfold replayed
  cases blocks with
  | nil =>
      have none : actions.filterMap (Service.Action.offer? job) = [] := by
        rw [← taken, offered]
        rfl
      rcases begun with row | more
      · obtain ⟨row, held⟩ := Option.ne_none_iff_exists'.mp row
        simp [Store.origin, held]
      · exact absurd none more
  | cons block blocks => simp

/-- The row of an idle job is the replay of all mutations that were submitted for the job. -/
theorem row_of_idle (own : SubmitsOwn actions) (alone : LeavesRow job actions)
    (announced : Announced start job actions) (going : .drive .cancel ∉ actions)
    (run : Service.run? Store.progressWriter limit ⟨Drain.initial, start⟩ actions =
      some (service, events))
    (idle : service.drain.table.states.get? job = none)
    (begun : start.progress.get? job ≠ none ∨
      actions.filterMap (Service.Action.offer? job) ≠ []) :
    service.world.progress.get? job =
      some ((actions.filterMap (Service.Action.offer? job)).foldl ProgressMutation.act
        (start.origin job)) :=
  row_of_allowed own alone going run (allowed_of_run own alone announced going run) idle begun

/-- A job that was refused never gets a row. -/
theorem row_of_refused (own : SubmitsOwn actions) (alone : LeavesRow job actions)
    (run : Service.run? Store.progressWriter limit ⟨Drain.initial, start⟩ actions =
      some (service, events)) {mutation : ProgressMutation}
    (refused : .answered job mutation .rejected ∈ events) :
    service.world.progress.get? job = none := by
  obtain ⟨split, _, pending, failures, only, held, missing, _⟩ :=
    exists_refused_call own run refused
  obtain ⟨front, action, back, middle, earlier, next, now, later, rfl, rfl, before, taken, after⟩ :=
    split
  dsimp only at only held missing
  subst only
  obtain ⟨absent, unwritten⟩ := unwritten_of_missing own.front alone.front before missing
  have through : Service.run? Store.progressWriter limit ⟨Drain.initial, start⟩ (front ++ [action]) =
      some (next, earlier ++ [.answered job pending .rejected]) :=
    runOf_append.mpr ⟨_, _, _, before, runOf_singleton.mpr taken, rfl⟩
  -- Nothing was persisted before the refusal, as there is no row, and nothing is after it.
  have nothing := Service.persisted_of_refused through
    (List.mem_append_right _ (List.mem_singleton_self _)) after
  rw [row_of_run own alone run, history_append, history_append, List.filterMap_append,
    List.filterMap_append, unwritten, nothing]
  simp [replayed, history, Event.key?, Event.persisted?, absent]

end Service

end Intake
