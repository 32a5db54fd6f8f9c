import Intake.Dispatch.Lane
import Intake.Dispatch.Report
import Intake.Store

/-!
# A store that takes its time

Every write waits before and after it is applied.  A call that is given up before its write is not
applied; one that is given up after it stays applied.
-/

namespace Intake

instance : Mergeable ProgressMutation := ⟨ProgressMutation.merge⟩

instance : Mergeable JournalBatch := ⟨JournalBatch.merge⟩

/-- A store, its waits in milliseconds, and what was noticed. -/
structure SlowStore where
  store : Store
  before : Nat
  after : Nat
  /-- What was noticed since the notices were last read, last first. -/
  notices : List Notice

/-- The rest of a write that waits. -/
inductive WriteRest (Mutation Value : Type) where
  /-- The write is still to be applied. -/
  | unwritten (mutation : Mutation)
  /-- The write was applied, with a result. -/
  | written (result : StoreResult Value)

namespace SlowStore

open Dispatch

/-- Adds notices. -/
def note (site : SlowStore) (notices : List Notice) : SlowStore :=
  { site with notices := notices.reverse ++ site.notices }

/-- The answer of a write with its notices. -/
def answer {Rest : Type} (site : SlowStore) :
    StoreResult (List Notice) → Except Overflow (Motion Rest × SlowStore)
  | .ok notices => .ok (.answers (.ok ()), site.note notices)
  | .failed failure => .ok (.answers (.error (.ofStore failure)), site)
  | .overflow cause => .error cause

/-- How mutations of a kind are written, and what the results mean. -/
structure Writing (Mutation Value : Type) where
  /-- The name of the dispatcher. -/
  name : String
  /-- Writes a mutation of a job. -/
  write : Store → Uuid → Mutation → StoreResult Value × Store
  /-- The notices about a result. -/
  review : StoreResult Value → StoreResult (List Notice)
  /-- What is logged, before the failure, when mutations of a job are lost. -/
  lost : Option String

variable {Mutation Value : Type}

/-- A write was applied. -/
def applied (writing : Writing Mutation Value) (site : SlowStore) (result : StoreResult Value) :
    Except Overflow (Motion (WriteRest Mutation Value) × SlowStore) :=
  if site.after = 0 then site.answer (writing.review result)
  else
    match result with
    | .overflow cause => .error cause
    | result => .ok (.waits site.after (.written result), site)

/-- Applies a write. -/
def apply (writing : Writing Mutation Value) (site : SlowStore) (job : Uuid)
    (mutation : Mutation) : Except Overflow (Motion (WriteRest Mutation Value) × SlowStore) :=
  let (result, store) := writing.write site.store job mutation
  applied writing { site with store } result

/-- Takes note of an event of the dispatcher. -/
def observe (writing : Writing Mutation Value) (site : SlowStore) (event : Event Uuid Mutation) :
    SlowStore :=
  let site := site.note (event.notices writing.name)
  match event.discarded?, writing.lost with
  | some (_, failure), some lost => site.note [.logged .warning (lost ++ failure.message)]
  | _, _ => site

/-- The backend of a kind of writes. -/
def backend (writing : Writing Mutation Value) :
    Backend Uuid Mutation (WriteRest Mutation Value) SlowStore where
  start := fun _ job mutation site =>
    if site.before = 0 then apply writing site job mutation
    else .ok (.waits site.before (.unwritten mutation), site)
  resume := fun _ job rest site =>
    match rest with
    | .unwritten mutation => apply writing site job mutation
    | .written result => site.answer (writing.review result)
  cut := fun _ _ _ site => site
  observe := fun _ event site => observe writing site event

/-- How progress is written. -/
def progressWriting (lost : Bool) : Writing ProgressMutation JobProgress where
  name := "progress"
  write := Store.writeProgress
  review := Store.reviewed
  lost := if lost then some "progress updates for job will be lost: " else none

/-- How journal records are written. -/
def journalWriting : Writing JournalBatch Unit where
  name := "journal"
  write := fun store _ batch => store.persistJournal batch
  review := fun result =>
    match result with
    | .ok () => .ok []
    | .failed failure => .failed failure
    | .overflow cause => .overflow cause
  lost := some "journal records for job will be lost: "

end SlowStore
end Intake
