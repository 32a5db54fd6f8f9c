import Intake.Proofs.Pipeline.Office

/-!
# One dispatcher of the two

Each dispatcher of an office sees a store that others change.  A run of the office is a run of
either dispatcher, in which the other one and the outages are changes of the store.
-/

namespace Intake

open Dispatch

namespace Office

/-- How one of the dispatchers sees the whole. -/
structure View (Mutation : Type) where
  desk : Desk
  writer : Writer Uuid Mutation Store
  drain : Office → Drain Uuid Mutation
  event? : Report → Option (Event Uuid Mutation)
  /-- What is handed over to it for a job. -/
  handed? : Uuid → Handover → Option Mutation
  /-- What others do to the store. -/
  Keeps : (Store → Store) → Prop

/-- The dispatcher of progress; others leave progress alone. -/
def progressView : View ProgressMutation where
  desk := .progress
  writer := Store.progressWriter
  drain := Office.progress
  event? := Report.progress?
  handed? := progressOf?
  Keeps update := ∀ store, (update store).progress = store.progress

/-- The dispatcher of the journal; others leave the journal alone. -/
def journalView : View JournalBatch where
  desk := .journal
  writer := Store.journalWriter
  drain := Office.journal
  event? := Report.journal?
  handed? := batchOf?
  Keeps update := ∀ store, (update store).journal = store.journal

/-- What goes to one of the dispatchers for a job is in one line. -/
def View.HasLines {Mutation : Type} (view : View Mutation) : Prop :=
  ∀ job handover other, (view.handed? job handover).isSome → (view.handed? job other).isSome →
    sameLine handover other = true

theorem progressView_hasLines : progressView.HasLines := by
  intro job handover other
  cases handover <;> cases other <;> simp +contextual [progressView, progressOf?, sameLine]

theorem journalView_hasLines : journalView.HasLines := by
  intro job handover other
  cases handover <;> cases other <;> simp +contextual [journalView, batchOf?, sameLine]

/-- What is submitted was the first in hand of its line. -/
theorem View.HasLines.offers {Mutation : Type} {view : View Mutation} {handover : Handover}
    {earlier : List Handover} (line : view.HasLines)
    (first : ∀ other ∈ earlier, sameLine handover other = false) (rest : List Handover)
    (job : Uuid) :
    (view.handed? job handover).toList ++ (earlier ++ rest).filterMap (view.handed? job) =
      (earlier ++ handover :: rest).filterMap (view.handed? job) := by
  cases seen : view.handed? job handover with
  | none => simp [seen]
  | some mutation =>
      have none : earlier.filterMap (view.handed? job) = [] := by
        refine List.filterMap_eq_nil_iff.mpr fun other member => ?_
        by_contra more
        have same := line job handover other (by simp [seen]) (Option.isSome_iff_ne_none.mpr more)
        simp [first other member] at same
      simp [seen, none]

section Views

variable {Mutation : Type} [Mergeable Mutation]

/-- A part of a run in which so much was handed over, as a run of one dispatcher. -/
structure Traced (view : View Mutation) (limits : Desk → Nat) (before after : Office)
    (reports : List Report) (handed : List Handover)
    (trace : List (Service.Action Uuid Mutation Store)) : Prop where
  run : Service.run? view.writer (limits view.desk) ⟨view.drain before, before.store⟩ trace =
    some (⟨view.drain after, after.store⟩, reports.filterMap view.event?)
  /-- What was in hand and what was handed over is submitted in order, but what is in hand. -/
  offers : ∀ job, trace.filterMap (Service.Action.offer? job) ++
      after.inHand.filterMap (view.handed? job) =
    before.inHand.filterMap (view.handed? job) ++ handed.filterMap (view.handed? job)
  keeps : ∀ update, .change update ∈ trace → view.Keeps update

variable {view : View Mutation} {limits : Desk → Nat} {before middle after : Office}
  {reports later : List Report} {handed more : List Handover}
  {trace rest : List (Service.Action Uuid Mutation Store)}

theorem Traced.trans (first : Traced view limits before middle reports handed trace)
    (second : Traced view limits middle after later more rest) :
    Traced view limits before after (reports ++ later) (handed ++ more) (trace ++ rest) where
  run := by
    rw [List.filterMap_append]
    exact runOf_append.mpr ⟨_, _, _, first.run, second.run, rfl⟩
  offers := by
    intro job
    rw [List.filterMap_append, List.filterMap_append, List.append_assoc, second.offers,
      ← List.append_assoc, first.offers, List.append_assoc]
  keeps := by
    intro update member
    rcases List.mem_append.mp member with early | late
    · exact first.keeps update early
    · exact second.keeps update late

/-- Everything that is submitted was handed over, if nothing was in hand before. -/
theorem Traced.handed_of_offer (traced : Traced view limits before after reports handed trace)
    (empty : before.inHand = []) {job : Uuid} {mutation : Mutation}
    (member : mutation ∈ trace.filterMap (Service.Action.offer? job)) :
    ∃ handover ∈ handed, view.handed? job handover = some mutation := by
  have all := traced.offers job
  rw [empty, List.filterMap_nil, List.nil_append] at all
  exact List.mem_filterMap.mp (all ▸ List.mem_append_left _ member)

/-- The dispatcher does something. -/
structure Acts (view : View Mutation) (limits : Desk → Nat) (before after : Office)
    (reports : List Report) (does : Service.Action Uuid Mutation Store) : Prop where
  step : Service.step? view.writer (limits view.desk) ⟨view.drain before, before.store⟩ does =
    some (⟨view.drain after, after.store⟩, reports.filterMap view.event?)
  inHand : after.inHand = before.inHand

/-- Someone else does something, to the store at most. -/
structure Rests (view : View Mutation) (before after : Office) (reports : List Report) :
    Prop where
  drain : view.drain after = view.drain before
  silent : reports.filterMap view.event? = []
  store : ∃ update, view.Keeps update ∧ after.store = update before.store
  inHand : after.inHand = before.inHand

theorem Acts.traced {does : Service.Action Uuid Mutation Store}
    (acts : Acts view limits middle after reports does) (own : ∀ update, does ≠ .change update)
    (drain : view.drain middle = view.drain before) (store : middle.store = before.store)
    (offers : ∀ job, (does.offer? job).toList ++ middle.inHand.filterMap (view.handed? job) =
      before.inHand.filterMap (view.handed? job)) :
    Traced view limits before after reports [] [does] where
  run := by
    rw [← drain, ← store]
    exact runOf_singleton.mpr acts.step
  offers := by
    intro job
    rw [List.filterMap_nil, List.append_nil, acts.inHand, ← offers job]
    cases held : does.offer? job <;> simp [held]
  keeps := by
    intro update member
    exact absurd (List.mem_singleton.mp member).symm (own update)

theorem Rests.traced (rests : Rests view middle after reports) (before : Office)
    (drain : view.drain middle = view.drain before) (store : middle.store = before.store)
    (offers : ∀ job, middle.inHand.filterMap (view.handed? job) =
      before.inHand.filterMap (view.handed? job)) :
    ∃ update, Traced view limits before after reports [] [.change update] := by
  obtain ⟨update, keeps, changed⟩ := rests.store
  refine ⟨update, ?_, ?_, ?_⟩
  · rw [rests.drain, rests.silent, changed, drain, store]
    rfl
  · intro job
    rw [rests.inHand, List.filterMap_nil, List.append_nil, ← offers]
    rfl
  · intro other member
    rw [Service.Action.change.inj (List.mem_singleton.mp member)]
    exact keeps

/-- Signals are raised. -/
theorem Traced.still (drain : view.drain after = view.drain before)
    (store : after.store = before.store) (inHand : after.inHand = before.inHand ++ handed) :
    Traced view limits before after [] handed [] where
  run := by
    rw [drain, store]
    rfl
  offers := by
    intro job
    rw [inHand, List.filterMap_append]
    rfl
  keeps := by simp

end Views

/-! ## Single steps -/

theorem offer?_of_own {Mutation : Type} {does : Service.Action Uuid Mutation Store}
    (own : isOwn does = true) (job : Uuid) : does.offer? job = none := by
  cases does with
  | drive action =>
      cases action with
      | submit => simp [isOwn] at own
      | _ => rfl
  | write | change => rfl

theorem ne_change_of_own {Mutation : Type} {does : Service.Action Uuid Mutation Store}
    (own : isOwn does = true) (update : Store → Store) : does ≠ .change update := by
  rintro rfl
  simp [isOwn] at own

/-- A dispatcher of progress leaves the journal alone. -/
theorem journal_of_step {limit : Nat} {service after : Service Uuid ProgressMutation Store}
    {does : Service.Action Uuid ProgressMutation Store}
    {events : List (Event Uuid ProgressMutation)}
    (taken : Service.Step Store.progressWriter limit service does after events)
    (others : ∀ update, does ≠ .change update) :
    after.world.journal = service.world.journal := by
  cases taken with
  | drive => rfl
  | write held written => exact Store.ProgressWrite.journal_of_writer written
  | change => exact absurd rfl (others _)

/-- A dispatcher of the journal leaves progress alone. -/
theorem progress_of_step {limit : Nat} {service after : Service Uuid JournalBatch Store}
    {does : Service.Action Uuid JournalBatch Store} {events : List (Event Uuid JournalBatch)}
    (taken : Service.Step Store.journalWriter limit service does after events)
    (others : ∀ update, does ≠ .change update) :
    after.world.progress = service.world.progress := by
  cases taken with
  | drive => rfl
  | write held written => exact (Store.JournalWrite.of_writer written).progress_eq
  | change => exact absurd rfl (others _)

section Steps

variable {limits : Desk → Nat} {office next : Office} {reports : List Report}

theorem acts_of_onProgress {does : Service.Action Uuid ProgressMutation Store}
    (taken : office.onProgress limits does = some (next, reports)) :
    Acts progressView limits office next reports does := by
  obtain ⟨⟨service, events⟩, done, same⟩ := Option.map_eq_some_iff.mp taken
  obtain ⟨rfl, rfl⟩ := Prod.mk.inj same
  have reported : (events.map Report.progress).filterMap progressView.event? = events := by
    rw [List.filterMap_map]
    exact List.filterMap_some
  refine ⟨?_, rfl⟩
  rw [reported]
  exact done

theorem acts_of_onJournal {does : Service.Action Uuid JournalBatch Store}
    (taken : office.onJournal limits does = some (next, reports)) :
    Acts journalView limits office next reports does := by
  obtain ⟨⟨service, events⟩, done, same⟩ := Option.map_eq_some_iff.mp taken
  obtain ⟨rfl, rfl⟩ := Prod.mk.inj same
  have reported : (events.map Report.journal).filterMap journalView.event? = events := by
    rw [List.filterMap_map]
    exact List.filterMap_some
  refine ⟨?_, rfl⟩
  rw [reported]
  exact done

theorem rests_of_onProgress {does : Service.Action Uuid ProgressMutation Store}
    (taken : office.onProgress limits does = some (next, reports))
    (others : ∀ update, does ≠ .change update) : Rests journalView office next reports := by
  obtain ⟨⟨service, events⟩, done, same⟩ := Option.map_eq_some_iff.mp taken
  obtain ⟨rfl, rfl⟩ := Prod.mk.inj same
  have kept : service.world.journal = office.store.journal :=
    journal_of_step (Service.Step.of_step? done) others
  refine ⟨rfl, ?_, ⟨fun store => { service.world with journal := store.journal }, ?_, ?_⟩, rfl⟩
  · rw [List.filterMap_map]
    exact List.filterMap_eq_nil_iff.mpr fun event _ => rfl
  · exact fun store => rfl
  · dsimp only
    rw [← kept]

theorem rests_of_onJournal {does : Service.Action Uuid JournalBatch Store}
    (taken : office.onJournal limits does = some (next, reports))
    (others : ∀ update, does ≠ .change update) : Rests progressView office next reports := by
  obtain ⟨⟨service, events⟩, done, same⟩ := Option.map_eq_some_iff.mp taken
  obtain ⟨rfl, rfl⟩ := Prod.mk.inj same
  have kept : service.world.progress = office.store.progress :=
    progress_of_step (Service.Step.of_step? done) others
  refine ⟨rfl, ?_, ⟨fun store => { service.world with progress := store.progress }, ?_, ?_⟩, rfl⟩
  · rw [List.filterMap_map]
    exact List.filterMap_eq_nil_iff.mpr fun event _ => rfl
  · exact fun store => rfl
  · dsimp only
    rw [← kept]

theorem rests_of_outage {Mutation : Type} (view : View Mutation) (office : Office)
    (unavailable : Bool)
    (drain : view.drain { office with store := office.store.setUnavailable unavailable } =
      view.drain office) (keeps : view.Keeps (Store.setUnavailable · unavailable)) :
    Rests view office { office with store := office.store.setUnavailable unavailable } [] :=
  ⟨drain, rfl, ⟨_, keeps, rfl⟩, rfl⟩

/-- Every step is one or none of the dispatcher, or a change of the store that is allowed. -/
def View.Follows {Mutation : Type} [Mergeable Mutation] (view : View Mutation) : Prop :=
  ∀ {limits : Desk → Nat} {office next : Office} {action : Action} {reports : List Report},
    Step limits office action next reports →
      ∃ trace, Traced view limits office next reports (action.raise office.signals).2 trace ∧
        (.drive .cancel ∈ trace → action.shutdown? = some view.desk)

theorem progressView_follows : progressView.Follows := by
  intro limits office next action reports taken
  cases taken with
  | signal raised => exact ⟨[], .still rfl rfl rfl, by simp⟩
  | hand held first submitted =>
      rename_i position handover earlier later
      have offers := progressView_hasLines.offers first later
      rw [← held] at offers
      cases handover with
      | progress job mutation =>
          refine ⟨[.drive (.submit job mutation)], ?_, by simp⟩
          exact (acts_of_onProgress submitted).traced (by simp) rfl rfl offers
      | journal job batch =>
          obtain ⟨update, traced⟩ :=
            (rests_of_onJournal submitted (by simp)).traced office rfl rfl offers
          exact ⟨_, traced, by simp⟩
  | progress acted =>
      rename_i does own
      refine ⟨[does], (acts_of_onProgress acted).traced (ne_change_of_own own) rfl rfl ?_, ?_⟩
      · intro job
        rw [offer?_of_own own]
        rfl
      · intro member
        obtain rfl := List.mem_singleton.mp member
        rfl
  | journal acted =>
      rename_i does own
      obtain ⟨update, traced⟩ :=
        (rests_of_onJournal acted (ne_change_of_own own)).traced office rfl rfl fun _ => rfl
      exact ⟨_, traced, by simp⟩
  | outage =>
      rename_i unavailable
      have rests := rests_of_outage progressView office unavailable rfl fun _ => rfl
      obtain ⟨update, traced⟩ := rests.traced office rfl rfl fun _ => rfl
      exact ⟨_, traced, by simp⟩

theorem journalView_follows : journalView.Follows := by
  intro limits office next action reports taken
  cases taken with
  | signal raised => exact ⟨[], .still rfl rfl rfl, by simp⟩
  | hand held first submitted =>
      rename_i position handover earlier later
      have offers := journalView_hasLines.offers first later
      rw [← held] at offers
      cases handover with
      | progress job mutation =>
          obtain ⟨update, traced⟩ :=
            (rests_of_onProgress submitted (by simp)).traced office rfl rfl offers
          exact ⟨_, traced, by simp⟩
      | journal job batch =>
          refine ⟨[.drive (.submit job batch)], ?_, by simp⟩
          exact (acts_of_onJournal submitted).traced (by simp) rfl rfl offers
  | progress acted =>
      rename_i does own
      obtain ⟨update, traced⟩ :=
        (rests_of_onProgress acted (ne_change_of_own own)).traced office rfl rfl fun _ => rfl
      exact ⟨_, traced, by simp⟩
  | journal acted =>
      rename_i does own
      refine ⟨[does], (acts_of_onJournal acted).traced (ne_change_of_own own) rfl rfl ?_, ?_⟩
      · intro job
        rw [offer?_of_own own]
        rfl
      · intro member
        obtain rfl := List.mem_singleton.mp member
        rfl
  | outage =>
      rename_i unavailable
      have rests := rests_of_outage journalView office unavailable rfl fun _ => rfl
      obtain ⟨update, traced⟩ := rests.traced office rfl rfl fun _ => rfl
      exact ⟨_, traced, by simp⟩

end Steps

/-- A run is a run of either dispatcher, to which all is submitted that was handed over and is no
longer in hand. -/
theorem View.Follows.of_run {Mutation : Type} [Mergeable Mutation] {view : View Mutation}
    (follows : view.Follows) {limits : Desk → Nat} {before office : Office} {actions : List Action}
    {reports : List Report} (run : run? limits before actions = some (office, reports)) :
    ∃ trace, Traced view limits before office reports (heed before.signals actions).2 trace ∧
      (.drive .cancel ∈ trace → ∃ action ∈ actions, action.shutdown? = some view.desk) := by
  refine runOf_induction (motive := fun actions (office : Office) reports =>
    ∃ trace, Traced view limits before office reports (heed before.signals actions).2 trace ∧
      (.drive .cancel ∈ trace → ∃ action ∈ actions, action.shutdown? = some view.desk)) ?_ ?_ run
  · exact ⟨[], .still rfl rfl (List.append_nil _).symm, by simp⟩
  · rintro actions middle reports action next now front ⟨trace, traced, cancels⟩ taken
    obtain ⟨last, step, cancelled⟩ := follows (Step.of_step? taken)
    rw [signals_of_run front] at step
    refine ⟨trace ++ last, ?_, ?_⟩
    · rw [heed_concat]
      exact traced.trans step
    · intro member
      rcases List.mem_append.mp member with early | late
      · obtain ⟨first, among, shut⟩ := cancels early
        exact ⟨first, List.mem_append_left _ among, shut⟩
      · exact ⟨action, by simp, cancelled late⟩

end Office
end Intake
