import Intake.Proofs.Progress.Gains
import Intake.Proofs.Progress.Persistence
import Intake.Proofs.Run

/-!
# Writers of one store

Several processes persist progress in one store, each its own writes in their order, and repeat a
write that found the store away.  Whatever the interleaving, each row gains what all its deltas say,
and has the last total that a creation brought.  So where all totals of a job agree, the outcome
depends neither on the interleaving nor on what a process merged before it wrote.
-/

namespace Intake

/-- A mutation that is written for a job. -/
structure JobWrite where
  job : Uuid
  mutation : ProgressMutation

/-- The mutations of a job. -/
def mutationsOf (job : Uuid) (writes : List JobWrite) : List ProgressMutation :=
  (writes.filter (·.job = job)).map JobWrite.mutation

/-- The totals that become known of a job, in order. -/
def totalsOf (job : Uuid) (writes : List JobWrite) : List Int64 :=
  (mutationsOf job writes).flatMap ProgressMutation.totals

/-- Processes with what they are still to write, and their store. -/
structure Crew where
  queues : List (List JobWrite)
  store : Store

namespace Crew

/-- What can happen. -/
inductive Action where
  /-- A process makes the call for its next write. -/
  | persist (process : Nat)
  /-- The store goes away or comes back. -/
  | switch (unavailable : Bool)

/-- One step, if it is possible: a write that was persisted is reported with its process, and one
that failed stays.  No step is possible where a counter overflows. -/
def step? (crew : Crew) : Action → Option (Crew × List (Nat × JobWrite))
  | .persist process =>
      match crew.queues[process]? with
      | some (write :: rest) =>
          match crew.store.persistProgress write.job write.mutation with
          | (.ok _, store) => some (⟨crew.queues.set process rest, store⟩, [(process, write)])
          | (.failed _, store) => some (⟨crew.queues, store⟩, [])
          | (.overflow _, _) => none
      | _ => none
  | .switch unavailable => some (⟨crew.queues, crew.store.setUnavailable unavailable⟩, [])

/-- The state after actions that are possible one after the other, and what was persisted. -/
def run? (crew : Crew) (actions : List Action) : Option (Crew × List (Nat × JobWrite)) :=
  runOf step? crew actions

end Crew

namespace Store

/-- What comes of persisting a mutation of a job with a row. -/
inductive RowWrite (store : Store) (job : Uuid) (mutation : ProgressMutation)
    (row : JobProgress) : StoreResult (List Notice) × Store → Prop where
  | away (absent : store.unavailable = true) :
      RowWrite store job mutation row (.failed outage, store)
  | crash (present : store.unavailable = false) (cause : Overflow) (after : Store) :
      RowWrite store job mutation row (.overflow cause, after)
  | done {updated : JobProgress} {after : Store} {notices : List Notice}
      (present : store.unavailable = false) (applied : mutation.apply row = .ok updated)
      (progress : ∀ other, after.progress.get? other =
        if job = other then some updated else store.progress.get? other) :
      RowWrite store job mutation row (.ok notices, after)

namespace RowWrite

variable {store : Store} {job : Uuid} {mutation : ProgressMutation} {row : JobProgress}

theorem of_persist (own : mutation.IsFor job) (held : store.progress.get? job = some row) :
    RowWrite store job mutation row (store.persistProgress job mutation) := by
  have outcome := Persisted.of_persist store own
  generalize store.persistProgress job mutation = persisted at outcome
  obtain ⟨result, after⟩ := persisted
  dsimp only at outcome
  cases outcome with
  | away absent => exact .away absent
  | unknown present missing => simp [held] at missing
  | crashed present | torn present => exact .crash present _ _
  | written present accepts applied whole =>
      rename_i updated
      rw [origin_of_held held] at applied
      rcases reviewed_cases updated with ⟨notices, answer, _⟩ | ⟨cause, _, answer, _⟩
      · exact answer ▸ .done present applied whole.get?_eq
      · exact answer ▸ .crash present cause after

end RowWrite
end Store

/-- A write of a plain mutation for a job that has a row. -/
structure JobWrite.Admissible (start : Store) (write : JobWrite) : Prop where
  plain : write.mutation.IsPlain
  own : write.mutation.IsFor write.job
  known : start.progress.get? write.job ≠ none

theorem JobWrite.Admissible.of_step {start : Store} {job : Uuid} {step : ProgressStep}
    (plain : step.IsPlain) (own : step.IsFor job) (known : start.progress.get? job ≠ none) :
    JobWrite.Admissible start ⟨job, ⟨[step]⟩⟩ where
  plain _ member := List.mem_singleton.mp member ▸ plain
  own _ member := List.mem_singleton.mp member ▸ own
  known := known

theorem mutationsOf_append (job : Uuid) (earlier later : List JobWrite) :
    mutationsOf job (earlier ++ later) = mutationsOf job earlier ++ mutationsOf job later := by
  simp [mutationsOf]

theorem totalsOf_append (job : Uuid) (earlier later : List JobWrite) :
    totalsOf job (earlier ++ later) = totalsOf job earlier ++ totalsOf job later := by
  simp [totalsOf, mutationsOf_append]

theorem mutationsOf_perm {writes others : List JobWrite} (job : Uuid)
    (same : writes.Perm others) : (mutationsOf job writes).Perm (mutationsOf job others) :=
  (same.filter _).map _

theorem totalsOf_perm {writes others : List JobWrite} (job : Uuid) (same : writes.Perm others) :
    (totalsOf job writes).Perm (totalsOf job others) :=
  (mutationsOf_perm job same).flatMap_right _

/-- Taking the first write of a queue takes one of all writes. -/
theorem perm_flatten_set {Entry : Type} {queues : List (List Entry)} {position : Nat}
    {first : Entry} {rest : List Entry} (held : queues[position]? = some (first :: rest)) :
    (first :: (queues.set position rest).flatten).Perm queues.flatten := by
  induction queues generalizing position with
  | nil => simp at held
  | cons queue queues ih =>
      cases position with
      | zero =>
          obtain rfl : queue = first :: rest := by simpa using held
          exact .refl _
      | succ position =>
          have inner := ih (by simpa using held)
          rw [List.set_cons_succ, List.flatten_cons, List.flatten_cons]
          exact List.perm_middle.symm.trans (inner.append_left queue)

namespace Crew

variable {start : Store} {programs : List (List JobWrite)} {crew next : Crew}
  {order now : List (Nat × JobWrite)}

/-- What a step of a process can be. -/
theorem of_persist {process : Nat} (taken : crew.step? (.persist process) = some (next, now)) :
    ∃ write rest, crew.queues[process]? = some (write :: rest) ∧
      ((∃ failure after, crew.store.persistProgress write.job write.mutation =
          (.failed failure, after) ∧ next = ⟨crew.queues, after⟩ ∧ now = []) ∨
        ∃ notices after, crew.store.persistProgress write.job write.mutation =
          (.ok notices, after) ∧ next = ⟨crew.queues.set process rest, after⟩ ∧
            now = [(process, write)]) := by
  unfold step? at taken
  dsimp only at taken
  split at taken
  · rename_i write rest held
    refine ⟨write, rest, held, ?_⟩
    split at taken
    · rename_i notices after outcome
      obtain ⟨rfl, rfl⟩ := Prod.mk.inj (Option.some.inj taken)
      exact .inr ⟨notices, after, outcome, rfl, rfl⟩
    · rename_i failure after outcome
      obtain ⟨rfl, rfl⟩ := Prod.mk.inj (Option.some.inj taken)
      exact .inl ⟨failure, after, outcome, rfl, rfl⟩
    · simp at taken
  · simp at taken

/-- The writes of a process, in their order. -/
def writesOf (process : Nat) (order : List (Nat × JobWrite)) : List JobWrite :=
  (order.filter (·.1 = process)).map Prod.snd

/-- How far processes are that began with programs and a store. -/
structure Progressed (programs : List (List JobWrite)) (start : Store) (crew : Crew)
    (order : List (Nat × JobWrite)) : Prop where
  /-- Each process has persisted its first writes, in their order, and has the rest to write. -/
  own : ∀ process, programs[process]? =
    (crew.queues[process]?).map (writesOf process order ++ ·)
  /-- All writes were persisted once or are still to be. -/
  whole : (order.map Prod.snd ++ crew.queues.flatten).Perm programs.flatten
  /-- Each row has gained what was persisted for its job. -/
  gained : ∀ job row, start.progress.get? job = some row →
    ∃ after, crew.store.progress.get? job = some after ∧
      row.Gained after (mutationsOf job (order.map Prod.snd))
        (totalsOf job (order.map Prod.snd))
  /-- No row was added. -/
  missing : ∀ job, start.progress.get? job = none → crew.store.progress.get? job = none

namespace Progressed

theorem initial (programs : List (List JobWrite)) (start : Store) :
    Progressed programs start ⟨programs, start⟩ [] where
  own process := by simp [writesOf]
  whole := .refl _
  gained _ row held := ⟨row, held, .refl row⟩
  missing _ absent := absent

theorem admissible (progressed : Progressed programs start crew order)
    (fit : ∀ write ∈ programs.flatten, write.Admissible start) {process : Nat} {write : JobWrite}
    {rest : List JobWrite} (held : crew.queues[process]? = some (write :: rest)) :
    write.Admissible start := by
  have among : write ∈ crew.queues.flatten := (perm_flatten_set held).subset List.mem_cons_self
  exact fit write (progressed.whole.subset (List.mem_append_right _ among))

/-- A call for a write that is due writes to the row of its job. -/
theorem outcome (progressed : Progressed programs start crew order) {write : JobWrite}
    (fit : write.Admissible start) :
    ∃ row before, start.progress.get? write.job = some before ∧
      before.Gained row (mutationsOf write.job (order.map Prod.snd))
        (totalsOf write.job (order.map Prod.snd)) ∧
      Store.RowWrite crew.store write.job write.mutation row
        (crew.store.persistProgress write.job write.mutation) := by
  obtain ⟨before, known⟩ := Option.ne_none_iff_exists'.mp fit.known
  obtain ⟨row, held, gained⟩ := progressed.gained _ before known
  exact ⟨row, before, known, gained, .of_persist fit.own held⟩

/-- A store that only became available or unavailable changes nothing. -/
private theorem of_same (progressed : Progressed programs start crew order) {store : Store}
    (same : store.progress = crew.store.progress) :
    Progressed programs start ⟨crew.queues, store⟩ order where
  own := progressed.own
  whole := progressed.whole
  gained := by
    simp only [same]
    exact progressed.gained
  missing := by
    simp only [same]
    exact progressed.missing

/-- A process has persisted its next write. -/
private theorem of_done (progressed : Progressed programs start crew order) {process : Nat}
    {write : JobWrite} {rest : List JobWrite} {before row updated : JobProgress} {after : Store}
    (held : crew.queues[process]? = some (write :: rest))
    (fit : write.Admissible start) (known : start.progress.get? write.job = some before)
    (gained : before.Gained row (mutationsOf write.job (order.map Prod.snd))
      (totalsOf write.job (order.map Prod.snd)))
    (applied : write.mutation.apply row = .ok updated)
    (progress : ∀ other, after.progress.get? other =
      if write.job = other then some updated else crew.store.progress.get? other) :
    Progressed programs start ⟨crew.queues.set process rest, after⟩
      (order ++ [(process, write)]) := by
  have writes : (order ++ [(process, write)]).map Prod.snd = order.map Prod.snd ++ [write] := by
    simp
  refine ⟨?_, ?_, ?_, ?_⟩
  · intro other
    rw [progressed.own other]
    by_cases same : process = other
    · subst same
      have inside : process < crew.queues.length := (List.getElem?_eq_some_iff.mp held).1
      rw [held]
      simp [inside, writesOf, List.filter_append]
    · simp [List.getElem?_set_ne same, writesOf, List.filter_append, same]
  · have taken := (perm_flatten_set held).append_left (order.map Prod.snd)
    simpa using taken.trans progressed.whole
  · intro job own first
    rw [writes, mutationsOf_append, totalsOf_append, progress]
    by_cases same : write.job = job
    · subst same
      obtain rfl := Option.some.inj (known.symm.trans first)
      have last : mutationsOf write.job [write] = [write.mutation] := by simp [mutationsOf]
      rw [if_pos rfl, totalsOf, totalsOf, last, List.flatMap_singleton]
      exact ⟨updated, rfl, gained.trans (.of_apply fit.plain applied)⟩
    · have none : mutationsOf job [write] = [] := by simp [mutationsOf, same]
      rw [if_neg same, totalsOf, totalsOf, none, List.flatMap_nil, List.append_nil, List.append_nil]
      exact progressed.gained job own first
  · intro job absent
    have other : write.job ≠ job := by
      rintro rfl
      simp [known] at absent
    rw [progress, if_neg other]
    exact progressed.missing job absent

theorem step (progressed : Progressed programs start crew order)
    (fit : ∀ write ∈ programs.flatten, write.Admissible start) {action : Action}
    (taken : crew.step? action = some (next, now)) :
    Progressed programs start next (order ++ now) := by
  cases action with
  | switch unavailable =>
      obtain ⟨rfl, rfl⟩ := Prod.mk.inj (Option.some.inj taken)
      rw [List.append_nil]
      exact progressed.of_same rfl
  | persist process =>
      obtain ⟨write, rest, held, outcome⟩ := of_persist taken
      have admissible := progressed.admissible fit held
      obtain ⟨row, before, known, gained, written⟩ := progressed.outcome admissible
      rcases outcome with ⟨failure, after, failed, rfl, rfl⟩ | ⟨notices, after, ok, rfl, rfl⟩
      · rw [failed] at written
        cases written with
        | away =>
            rw [List.append_nil]
            exact progressed.of_same rfl
      · rw [ok] at written
        cases written with
        | done present applied progress =>
            exact progressed.of_done held admissible known gained applied progress

theorem of_run (fit : ∀ write ∈ programs.flatten, write.Admissible start) {actions : List Action}
    (run : run? ⟨programs, start⟩ actions = some (crew, order)) :
    Progressed programs start crew order :=
  runOf_induction (motive := fun _ crew order => Progressed programs start crew order)
    (initial programs start)
    (fun _ _ _ _ _ _ _ progressed taken => progressed.step fit taken) run

end Progressed

/-- Every process has persisted all its writes. -/
def isDone (crew : Crew) : Bool := crew.queues.all List.isEmpty

/-- What comes of an interleaving of all writes. -/
structure Outcome (programs : List (List JobWrite)) (start store : Store)
    (order : List (Nat × JobWrite)) : Prop where
  /-- Each process has persisted its writes in their order. -/
  own : ∀ process program, programs[process]? = some program → writesOf process order = program
  /-- All writes were persisted once. -/
  whole : (order.map Prod.snd).Perm programs.flatten
  /-- Each row has gained what all writes of its job add, and has the last total of them. -/
  rows : ∀ job row, start.progress.get? job = some row →
    ∃ after, store.progress.get? job = some after ∧
      row.Gained after (mutationsOf job programs.flatten)
        (totalsOf job (order.map Prod.snd))
  /-- No row was added. -/
  missing : ∀ job, start.progress.get? job = none → store.progress.get? job = none

theorem Progressed.outcome_of_done (progressed : Progressed programs start crew order)
    (done : crew.isDone = true) : Outcome programs start crew.store order := by
  have empty : ∀ queue ∈ crew.queues, queue = [] := by simpa [isDone] using done
  have whole : (order.map Prod.snd).Perm programs.flatten := by
    have all := progressed.whole
    rwa [List.flatten_eq_nil_iff.mpr empty, List.append_nil] at all
  refine ⟨?_, whole, ?_, progressed.missing⟩
  · intro process program held
    rw [progressed.own process, Option.map_eq_some_iff] at held
    obtain ⟨queue, left, rfl⟩ := held
    rw [empty queue (List.mem_of_getElem? left), List.append_nil]
  · intro job row held
    obtain ⟨after, current, gained⟩ := progressed.gained job row held
    exact ⟨after, current, gained.perm (mutationsOf_perm job whole)⟩

end Crew

/-! ## Merging before writing -/

/-- Processes have merged neighbours among their mutations of each job. -/
def Batched (programs batches : List (List JobWrite)) : Prop :=
  List.Forall₂ (fun program batch =>
    ∀ job, Rebatched (mutationsOf job program) (mutationsOf job batch)) programs batches

/-- All totals that are known of a job are the same. -/
def Agreed (writes : List JobWrite) : Prop :=
  ∀ job, ∀ first ∈ totalsOf job writes, ∀ second ∈ totalsOf job writes, first = second

/-- A process has merged all it had to write, two mutations of one job. -/
theorem rebatched_pair {own : Uuid} {earlier later merged : ProgressMutation}
    (fits : earlier.merge? later = .ok merged) (job : Uuid) :
    Rebatched (mutationsOf job [⟨own, earlier⟩, ⟨own, later⟩]) (mutationsOf job [⟨own, merged⟩]) := by
  by_cases same : own = job
  · subst same
    simpa [mutationsOf] using @Rebatched.merge [] [] _ _ _ _ fits (.refl _)
  · simpa [mutationsOf, same] using Rebatched.refl []

theorem mem_mutationsOf {job : Uuid} {mutation : ProgressMutation} {writes : List JobWrite} :
    mutation ∈ mutationsOf job writes ↔
      ∃ write ∈ writes, write.job = job ∧ write.mutation = mutation := by
  simp [mutationsOf, and_assoc]

namespace Batched

variable {programs batches : List (List JobWrite)} {start : Store}

/-- What processes merged adds what its parts add. -/
theorem sums (merging : Batched programs batches) (job : Uuid) :
    ((mutationsOf job batches.flatten).map ProgressMutation.successes).sum =
        ((mutationsOf job programs.flatten).map ProgressMutation.successes).sum ∧
      ((mutationsOf job batches.flatten).map ProgressMutation.failures).sum =
          ((mutationsOf job programs.flatten).map ProgressMutation.failures).sum ∧
        totalsOf job batches.flatten = totalsOf job programs.flatten := by
  induction merging with
  | nil => exact ⟨rfl, rfl, rfl⟩
  | cons merged rest ih =>
      obtain ⟨successes, failures, totals⟩ := (merged job).sums
      obtain ⟨others, lost, known⟩ := ih
      rw [← totalsOf, ← totalsOf] at totals
      simp [mutationsOf_append, totalsOf_append, successes, failures, totals, others, lost, known]

theorem admissible (merging : Batched programs batches)
    (fit : ∀ write ∈ programs.flatten, write.Admissible start) :
    ∀ write ∈ batches.flatten, write.Admissible start := by
  induction merging with
  | nil => simp
  | cons merged rest ih =>
      rename_i program batch programs batches
      rw [List.flatten_cons, List.forall_mem_append] at fit ⊢
      refine ⟨?_, ih fit.2⟩
      intro write member
      have parts : ∀ mutation ∈ mutationsOf write.job program,
          (mutation.IsPlain ∧ mutation.IsFor write.job) ∧
            start.progress.get? write.job ≠ none := by
        intro mutation among
        obtain ⟨part, inside, same, rfl⟩ := mem_mutationsOf.mp among
        rw [← same]
        exact ⟨⟨(fit.1 part inside).plain, (fit.1 part inside).own⟩, (fit.1 part inside).known⟩
      have among : write.mutation ∈ mutationsOf write.job batch :=
        mem_mutationsOf.mpr ⟨write, member, rfl, rfl⟩
      have whole := (merged write.job).fit (fun mutation held => (parts mutation held).1) _ among
      refine ⟨whole.1, whole.2, ?_⟩
      -- The process had a write of the job, as it was not merged from nothing.
      obtain ⟨part, held⟩ : ∃ part, part ∈ mutationsOf write.job program := by
        apply List.exists_mem_of_ne_nil
        intro none
        rw [(merged write.job).eq_nil none] at among
        simp at among
      exact (parts part held).2

end Batched

/-- Where all entries are the same, the last one does not depend on the order. -/
theorem getLast?_of_perm {Entry : Type} {first second : List Entry} (perm : first.Perm second)
    (same : ∀ one ∈ first, ∀ other ∈ first, one = other) : first.getLast? = second.getLast? := by
  cases last : second.getLast? with
  | none =>
      rw [List.getLast?_eq_none_iff] at last ⊢
      exact List.perm_nil.mp (last ▸ perm)
  | some entry =>
      have among : entry ∈ first := perm.mem_iff.mpr (List.mem_of_getLast? last)
      have nonempty := List.ne_nil_of_mem among
      rw [List.getLast?_eq_some_getLast nonempty, same _ (List.getLast_mem nonempty) entry among]

/-- Rows that gained the same and know the same total are the same. -/
theorem JobProgress.Gained.unique {before one other : JobProgress}
    {added more : List ProgressMutation} {totals known : List Int64}
    (first : before.Gained one added totals) (second : before.Gained other more known)
    (successes : (more.map ProgressMutation.successes).sum =
      (added.map ProgressMutation.successes).sum)
    (failures : (more.map ProgressMutation.failures).sum =
      (added.map ProgressMutation.failures).sum)
    (last : known.getLast? = totals.getLast?) : other = one := by
  have succeeded : other.succeeded = one.succeeded := by
    rw [← Int64.toInt_inj, second.succeeded, first.succeeded, successes]
  have failed : other.failed = one.failed := by
    rw [← Int64.toInt_inj, second.failed, first.failed, failures]
  have total : other.total = one.total := by rw [second.total, first.total, last]
  have job : other.job = one.job := second.job.trans first.job.symm
  obtain ⟨_, _, _, _⟩ := one
  obtain ⟨_, _, _, _⟩ := other
  simp_all

namespace Crew

/-- The call for the next write of a process is answered: it fails while the store is away, and
otherwise it persists the write unless a counter overflows. -/
structure Answers (crew : Crew) (process : Nat) (write : JobWrite) : Prop where
  away : crew.store.unavailable = true → crew.step? (.persist process) = some (crew, [])
  present : crew.store.unavailable = false →
    (∃ next, crew.step? (.persist process) = some (next, [(process, write)])) ∨
      ∃ cause after, crew.store.persistProgress write.job write.mutation = (.overflow cause, after)

variable {start : Store} {programs batches : List (List JobWrite)} {crew other : Crew}
  {order last : List (Nat × JobWrite)}

theorem Progressed.answers (progressed : Progressed programs start crew order)
    (fit : ∀ write ∈ programs.flatten, write.Admissible start) {process : Nat} {write : JobWrite}
    {rest : List JobWrite} (held : crew.queues[process]? = some (write :: rest)) :
    crew.Answers process write := by
  obtain ⟨row, before, known, gained, written⟩ :=
    progressed.outcome (progressed.admissible fit held)
  generalize result : crew.store.persistProgress write.job write.mutation = outcome at written
  cases written with
  | away absent => exact ⟨fun _ => by simp [step?, held, result], by simp [absent]⟩
  | crash present cause after => exact ⟨by simp [present], fun _ => .inr ⟨cause, after, result⟩⟩
  | done present applied progress =>
      exact ⟨by simp [present], fun _ => .inl ⟨_, by simp [step?, held, result]; rfl⟩⟩

/-- Whatever processes merged, their writes come to the same. -/
theorem Outcome.progress_eq (first : Outcome programs start crew.store order)
    (second : Outcome batches start other.store last) (merging : Batched programs batches)
    (agreed : Agreed programs.flatten) (job : Uuid) :
    other.store.progress.get? job = crew.store.progress.get? job := by
  cases held : start.progress.get? job with
  | none => rw [first.missing job held, second.missing job held]
  | some row =>
      obtain ⟨one, current, gained⟩ := first.rows job row held
      obtain ⟨another, present, more⟩ := second.rows job row held
      obtain ⟨successes, failures, totals⟩ := merging.sums job
      have known := totalsOf_perm job first.whole
      have told := totalsOf_perm job second.whole
      rw [totals] at told
      have same := gained.unique more successes failures
        (getLast?_of_perm (told.trans known.symm) fun one among other member =>
          agreed job one (told.subset among) other (told.subset member))
      rw [current, present, same]

/-- In every interleaving of writers of plain mutations each call is answered, and once all writes
are done each row holds its deltas and its last total.  Where the totals of each job agree, neither
the interleaving nor what was merged makes a difference. -/
theorem writers_commute {start : Store} {programs : List (List JobWrite)}
    (fit : ∀ write ∈ programs.flatten, write.Admissible start) :
    (∀ actions crew order, run? ⟨programs, start⟩ actions = some (crew, order) →
        (∀ process write rest, crew.queues[process]? = some (write :: rest) →
          crew.Answers process write) ∧
          (crew.isDone = true → Outcome programs start crew.store order)) ∧
      ∀ batches, Batched programs batches → Agreed programs.flatten →
        ∀ actions crew order, run? ⟨programs, start⟩ actions = some (crew, order) →
          crew.isDone = true →
        ∀ others other last, run? ⟨batches, start⟩ others = some (other, last) →
          other.isDone = true →
            ∀ job, other.store.progress.get? job = crew.store.progress.get? job := by
  constructor
  · intro actions crew order run
    have progressed := Progressed.of_run fit run
    exact ⟨fun _ _ _ held => progressed.answers fit held, progressed.outcome_of_done⟩
  · intro batches merging agreed actions crew order run done others other last second finished
    have first := (Progressed.of_run fit run).outcome_of_done done
    have next := (Progressed.of_run (merging.admissible fit) second).outcome_of_done finished
    exact first.progress_eq next merging agreed

/-- A store with one job. -/
def oneJob : Store := (Store.empty.createProgress .zero none).2

/-- Two processes write to the job, and one of them knows its total. -/
def twoWriters : List (List JobWrite) :=
  [[⟨.zero, .create (some 3)⟩, ⟨.zero, .delta (.success .zero)⟩],
    [⟨.zero, .delta (.failure .zero)⟩, ⟨.zero, .delta (.success .zero)⟩]]

/-- The same writes, each process having merged its own. -/
def mergedWriters : List (List JobWrite) :=
  [[⟨.zero, ⟨[.create (some 3), .delta (.success .zero)]⟩⟩], [⟨.zero, .delta ⟨.zero, 1, 1⟩⟩]]

/-- The store is away for the first write of one process. -/
def taken : List Action :=
  [.persist 1, .switch true, .persist 0, .switch false, .persist 0, .persist 1, .persist 0]

theorem twoWriters_commute :
    ∃ crew order other last row, run? ⟨twoWriters, oneJob⟩ taken = some (crew, order) ∧
      run? ⟨mergedWriters, oneJob⟩ [.persist 1, .persist 0] = some (other, last) ∧
      other.store.progress.get? .zero = crew.store.progress.get? .zero ∧
      crew.store.progress.get? .zero = some row ∧ row.succeeded.toInt = 2 ∧
      row.failed.toInt = 1 := by
  have fit : ∀ write ∈ twoWriters.flatten, write.Admissible oneJob := by
    have known : oneJob.progress.get? .zero ≠ none := by decide
    simp only [twoWriters, List.flatten_cons, List.flatten_nil, List.append_nil,
      List.forall_mem_append, List.forall_mem_cons, List.not_mem_nil, false_implies,
      implies_true, and_true]
    exact ⟨⟨.of_step trivial trivial known, .of_step trivial rfl known⟩,
      .of_step trivial rfl known, .of_step trivial rfl known⟩
  have merging : Batched twoWriters mergedWriters :=
    .cons (rebatched_pair rfl) (.cons (rebatched_pair rfl) .nil)
  have agreed : Agreed twoWriters.flatten := by
    intro job one among other member
    have known : ∀ total ∈ totalsOf job twoWriters.flatten, total = 3 := by
      intro total held
      obtain ⟨mutation, own, brought⟩ := List.mem_flatMap.mp held
      obtain ⟨write, inside, -, rfl⟩ := mem_mutationsOf.mp own
      simp only [twoWriters, List.flatten_cons, List.flatten_nil, List.append_nil, List.mem_append,
        List.mem_cons, List.not_mem_nil, or_false] at inside
      rcases inside with (rfl | rfl) | rfl | rfl
      · exact List.mem_singleton.mp brought
      all_goals exact absurd brought List.not_mem_nil
    rw [known one among, known other member]
  have first : ((run? ⟨twoWriters, oneJob⟩ taken).map fun outcome => outcome.1.isDone) =
      some true := by decide +kernel
  have second : ((run? ⟨mergedWriters, oneJob⟩ [.persist 1, .persist 0]).map fun outcome =>
      outcome.1.isDone) = some true := by decide +kernel
  obtain ⟨⟨crew, order⟩, run, done⟩ := Option.map_eq_some_iff.mp first
  obtain ⟨⟨other, last⟩, ran, finished⟩ := Option.map_eq_some_iff.mp second
  obtain ⟨outcomes, commute⟩ := writers_commute fit
  obtain ⟨row, held, gained⟩ := ((outcomes _ _ _ run).2 done).rows .zero (.start .zero none) rfl
  refine ⟨crew, order, other, last, row, run, ran,
    commute _ merging agreed _ _ _ run done _ _ _ ran finished .zero, held, ?_, ?_⟩
  · rw [gained.succeeded]
    decide +kernel
  · rw [gained.failed]
    decide +kernel

end Crew
end Intake
