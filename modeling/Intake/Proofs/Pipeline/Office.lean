import Intake.Pipeline.Basic
import Intake.Proofs.Entries
import Intake.Proofs.Progress.Rows

/-!
# Signals with both dispatchers

The signals of a pipeline hand mutations to a dispatcher of progress and to one of the journal,
which write to one store.  What is handed over for one job to one dispatcher is submitted in order.
Beyond that signals, submissions and the steps of the dispatchers come in any order.
-/

namespace Intake

open Dispatch

/-- The signals of a pipeline, its dispatchers, and their store. -/
structure Office where
  signals : Signals
  /-- What signals handed over and is not submitted yet, oldest first. -/
  inHand : List Handover
  progress : Drain Uuid ProgressMutation
  journal : Drain Uuid JournalBatch
  store : Store

namespace Office

/-- Signals over a store, before anything happened. -/
def opened (signals : Signals) (store : Store) : Office :=
  ⟨signals, [], Drain.initial, Drain.initial, store⟩

/-- What the dispatchers report. -/
inductive Report where
  | progress (event : Event Uuid ProgressMutation)
  | journal (event : Event Uuid JournalBatch)

/-- An event of the dispatcher of progress. -/
def Report.progress? : Report → Option (Event Uuid ProgressMutation)
  | progress event => some event
  | journal _ => none

/-- An event of the dispatcher of the journal. -/
def Report.journal? : Report → Option (Event Uuid JournalBatch)
  | progress _ => none
  | journal event => some event

theorem mem_progress {event : Event Uuid ProgressMutation} {reports : List Report} :
    event ∈ reports.filterMap Report.progress? ↔ .progress event ∈ reports := by
  rw [List.mem_filterMap]
  constructor
  · rintro ⟨report, member, same⟩
    cases report with
    | progress other =>
        obtain rfl := Option.some.inj same
        exact member
    | journal => simp [Report.progress?] at same
  · intro member
    exact ⟨_, member, rfl⟩

theorem mem_journal {event : Event Uuid JournalBatch} {reports : List Report} :
    event ∈ reports.filterMap Report.journal? ↔ .journal event ∈ reports := by
  rw [List.mem_filterMap]
  constructor
  · rintro ⟨report, member, same⟩
    cases report with
    | progress => simp [Report.journal?] at same
    | journal other =>
        obtain rfl := Option.some.inj same
        exact member
  · intro member
    exact ⟨_, member, rfl⟩

/-- Whether nobody submits anything and nobody else changes the store. -/
def isOwn {Mutation : Type} : Service.Action Uuid Mutation Store → Bool
  | .drive (.submit ..) | .change _ => false
  | _ => true

/-- What can happen. -/
inductive Action where
  /-- A chunk arrives. -/
  | chunk (event : ChunkEvent)
  /-- A record leaves the pipeline. -/
  | record (event : RecordProcessed) (createdAt : Instant)
  /-- A mutation in hand is submitted. -/
  | hand (position : Nat)
  /-- The dispatcher of progress goes on, or it is told to shut down. -/
  | progress (does : Service.Action Uuid ProgressMutation Store) (own : isOwn does = true)
  /-- The dispatcher of the journal goes on, or it is told to shut down. -/
  | journal (does : Service.Action Uuid JournalBatch Store) (own : isOwn does = true)
  /-- The store goes away or comes back. -/
  | outage (unavailable : Bool)

/-- The dispatcher that is told to shut down. -/
def Action.shutdown? : Action → Option Desk
  | progress (.drive .cancel) _ => some .progress
  | journal (.drive .cancel) _ => some .journal
  | _ => none

/-- The signals after an action, and what it hands over. -/
def Action.raise (signals : Signals) : Action → Signals × List Handover
  | chunk event =>
      let (_, signals, effects) := signals.chunkReceived event
      (signals, effects.handovers)
  | record event createdAt =>
      let (signals, effects) := signals.recordProcessed event createdAt
      (signals, effects.handovers)
  | _ => (signals, [])

/-- The dispatcher of progress does something. -/
def onProgress (limits : Desk → Nat) (office : Office)
    (action : Service.Action Uuid ProgressMutation Store) : Option (Office × List Report) :=
  (Service.step? Store.progressWriter (limits .progress) ⟨office.progress, office.store⟩ action).map
    fun outcome =>
      ({ office with progress := outcome.1.drain, store := outcome.1.world },
        outcome.2.map .progress)

/-- The dispatcher of the journal does something. -/
def onJournal (limits : Desk → Nat) (office : Office)
    (action : Service.Action Uuid JournalBatch Store) : Option (Office × List Report) :=
  (Service.step? Store.journalWriter (limits .journal) ⟨office.journal, office.store⟩ action).map
    fun outcome =>
      ({ office with journal := outcome.1.drain, store := outcome.1.world },
        outcome.2.map .journal)

/-- Submits a mutation. -/
def submit (limits : Desk → Nat) (office : Office) : Handover → Option (Office × List Report)
  | .progress job mutation => office.onProgress limits (.drive (.submit job mutation))
  | .journal job batch => office.onJournal limits (.drive (.submit job batch))

/-- Whether mutations go to one dispatcher for one job. -/
def sameLine : Handover → Handover → Bool
  | .progress job _, .progress other _ => job == other
  | .journal job _, .journal other _ => job == other
  | _, _ => false

/-- One step, if it is possible, given how many flushes each dispatcher makes at a time. -/
def step? (limits : Desk → Nat) (office : Office) (action : Action) :
    Option (Office × List Report) :=
  match action with
  | .chunk _ | .record .. =>
      let (signals, handovers) := action.raise office.signals
      some ({ office with signals, inHand := office.inHand ++ handovers }, [])
  | .hand position =>
      let earlier := office.inHand.take position
      match office.inHand.drop position with
      | [] => none
      | handover :: later =>
          if earlier.any (sameLine handover) then none
          else { office with inHand := earlier ++ later }.submit limits handover
  | .progress does _ => office.onProgress limits does
  | .journal does _ => office.onJournal limits does
  | .outage unavailable =>
      some ({ office with store := office.store.setUnavailable unavailable }, [])

/-- The state and the reports after actions that are possible one after the other. -/
def run? (limits : Desk → Nat) (office : Office) (actions : List Action) :
    Option (Office × List Report) :=
  runOf (step? limits) office actions

/-! ## Single steps -/

/-- Whether an action is a signal. -/
def Action.isSignal : Action → Bool
  | chunk _ | record .. => true
  | _ => false

/-- What a single step can do. -/
inductive Step (limits : Desk → Nat) (office : Office) : Action → Office → List Report → Prop where
  | signal {action : Action} (raised : action.isSignal = true) :
      Step limits office action
        { office with
          signals := (action.raise office.signals).1
          inHand := office.inHand ++ (action.raise office.signals).2 } []
  | hand {position : Nat} {handover : Handover} {earlier later : List Handover} {next : Office}
      {reports : List Report} (held : office.inHand = earlier ++ handover :: later)
      (first : ∀ other ∈ earlier, sameLine handover other = false)
      (taken : { office with inHand := earlier ++ later }.submit limits handover =
        some (next, reports)) :
      Step limits office (.hand position) next reports
  | progress {does : Service.Action Uuid ProgressMutation Store} {own : isOwn does = true}
      {next : Office} {reports : List Report}
      (taken : office.onProgress limits does = some (next, reports)) :
      Step limits office (.progress does own) next reports
  | journal {does : Service.Action Uuid JournalBatch Store} {own : isOwn does = true}
      {next : Office} {reports : List Report}
      (taken : office.onJournal limits does = some (next, reports)) :
      Step limits office (.journal does own) next reports
  | outage {unavailable : Bool} :
      Step limits office (.outage unavailable)
        { office with store := office.store.setUnavailable unavailable } []

theorem Step.of_step? {limits : Desk → Nat} {office next : Office} {action : Action}
    {reports : List Report} (taken : office.step? limits action = some (next, reports)) :
    Step limits office action next reports := by
  cases action with
  | chunk | record =>
      simp only [step?, Option.some.injEq, Prod.mk.injEq] at taken
      obtain ⟨rfl, rfl⟩ := taken
      exact .signal rfl
  | hand position =>
      simp only [step?] at taken
      split at taken
      · simp at taken
      · rename_i handover later held
        split at taken
        · simp at taken
        · rename_i first
          refine .hand ?_ ?_ taken
          · rw [← held, List.take_append_drop]
          · simpa using first
  | progress => exact .progress taken
  | journal => exact .journal taken
  | outage =>
      simp only [step?, Option.some.injEq, Prod.mk.injEq] at taken
      obtain ⟨rfl, rfl⟩ := taken
      exact .outage

theorem signals_of_onProgress {limits : Desk → Nat} {office next : Office} {reports : List Report}
    {does : Service.Action Uuid ProgressMutation Store}
    (taken : office.onProgress limits does = some (next, reports)) :
    next.signals = office.signals := by
  obtain ⟨outcome, _, same⟩ := Option.map_eq_some_iff.mp taken
  obtain ⟨rfl, _⟩ := Prod.mk.inj same
  rfl

theorem signals_of_onJournal {limits : Desk → Nat} {office next : Office} {reports : List Report}
    {does : Service.Action Uuid JournalBatch Store}
    (taken : office.onJournal limits does = some (next, reports)) :
    next.signals = office.signals := by
  obtain ⟨outcome, _, same⟩ := Option.map_eq_some_iff.mp taken
  obtain ⟨rfl, _⟩ := Prod.mk.inj same
  rfl

/-- Only signals change the signals. -/
theorem Step.signals_eq {limits : Desk → Nat} {office next : Office} {action : Action}
    {reports : List Report} (taken : Step limits office action next reports) :
    next.signals = (action.raise office.signals).1 := by
  cases taken with
  | signal | outage => rfl
  | hand held first submitted =>
      rename_i handover earlier later
      cases handover with
      | progress => exact (signals_of_onProgress submitted :)
      | journal => exact (signals_of_onJournal submitted :)
  | progress acted => exact signals_of_onProgress acted
  | journal acted => exact signals_of_onJournal acted

/-! ## The signals of a run -/

/-- The mutation of progress of a job that is handed over. -/
def progressOf? (job : Uuid) : Handover → Option ProgressMutation
  | .progress other mutation => if other = job then some mutation else none
  | .journal .. => none

/-- The batch of a job that is handed over. -/
def batchOf? (job : Uuid) : Handover → Option JournalBatch
  | .progress .. => none
  | .journal other batch => if other = job then some batch else none

/-- The signals after actions, and all that they hand over. -/
def heed (signals : Signals) : List Action → Signals × List Handover
  | [] => (signals, [])
  | action :: rest =>
      let (middle, first) := action.raise signals
      let (final, later) := heed middle rest
      (final, first ++ later)

theorem heed_concat (signals : Signals) (actions : List Action) (action : Action) :
    heed signals (actions ++ [action]) =
      ((action.raise (heed signals actions).1).1,
        (heed signals actions).2 ++ (action.raise (heed signals actions).1).2) := by
  induction actions generalizing signals with
  | nil => simp [heed]
  | cons first rest ih => simp [heed, ih]

theorem signals_of_run {limits : Desk → Nat} {before office : Office} {actions : List Action}
    {reports : List Report} (run : run? limits before actions = some (office, reports)) :
    office.signals = (heed before.signals actions).1 := by
  refine runOf_induction (motive := fun actions (office : Office) _ =>
    office.signals = (heed before.signals actions).1) rfl ?_ run
  intro actions office reports action next now _ held taken
  rw [heed_concat, ← held]
  exact (Step.of_step? taken).signals_eq

end Office
end Intake
