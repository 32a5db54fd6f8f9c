import Intake.Proofs.Dispatch.Chances

/-!
# Reports of discarded keys

Who asks for it is to be told once of every key of which mutations were discarded.  A flush reports
its key when it gives up, and only a rejected key is barred from then on.  So the key of an abandoned
flush can come again while the loop has not yet noticed that it is to shut down, and if it is
discarded again the second report repeats the first.  `Drain.reported_once_iff` says exactly when one
report is all there is.
-/

namespace Intake
namespace Dispatch

/-- How often it is reported that mutations of a key were discarded. -/
def reports {Key Mutation : Type} [DecidableEq Key] (key : Key)
    (events : List (Event Key Mutation)) : Nat :=
  (events.filterMap Event.discarded?).countP fun report => report.1 = key

theorem reports_append {Key Mutation : Type} [DecidableEq Key] (key : Key)
    (earlier later : List (Event Key Mutation)) :
    reports key (earlier ++ later) = reports key earlier + reports key later := by
  rw [reports, List.filterMap_append, List.countP_append]
  rfl

/-- The reports of a key are its losses. -/
theorem reports_eq {Key Mutation : Type} [DecidableEq Key] (key : Key)
    (events : List (Event Key Mutation)) :
    reports key events = ((history key events).filterMap Event.loss?).length := by
  rw [reports, List.countP_filterMap, List.length_filterMap_eq_countP, history, List.countP_filter]
  apply List.countP_congr
  intro event _
  cases event <;> simp [Event.discarded?, Event.loss?, Event.key?]

/-! ## Who is told -/

/-- Whether a trace tells that mutations of a key were discarded. -/
def Trace.isFailureOf {Key Mutation : Type} [DecidableEq Key] (key : Key)
    (trace : Trace Key Mutation) : Bool :=
  match trace.happening with
  | .failed _ => trace.key = key
  | .started _ | .ended _ => false

namespace Recording

variable {Key Mutation : Type} [DecidableEq Key]

/-- How often a recording was told that mutations of a key were discarded. -/
def failures (recording : Recording Key Mutation) (key : Key) : Nat :=
  recording.trace.countP (Trace.isFailureOf key)

/-- A recording takes note of events, each at its time. -/
def observeAll (name : String) (recording : Recording Key Mutation)
    (told : List (Nat × Event Key Mutation)) : Recording Key Mutation :=
  told.foldl (fun recording entry => recording.observe name entry.1 entry.2) recording

omit [DecidableEq Key] in
theorem reporting_observe (name : String) (recording : Recording Key Mutation) (time : Nat)
    (event : Event Key Mutation) :
    (recording.observe name time event).reporting = recording.reporting := by
  unfold observe
  dsimp only
  split
  · split <;> rfl
  · rfl

theorem failures_observe (name : String) (recording : Recording Key Mutation) (time : Nat)
    (event : Event Key Mutation) (key : Key) :
    (recording.observe name time event).failures key =
      recording.failures key + if recording.reporting then reports key [event] else 0 := by
  unfold observe reports failures
  dsimp only
  cases discarded : event.discarded? with
  | none => simp [discarded]
  | some report =>
      obtain ⟨owner, failure⟩ := report
      cases reporting : recording.reporting with
      | false => simp
      | true => simp [discarded, note, List.countP_cons, Trace.isFailureOf]

/-- A recording that is to be told is told of each report, and another one of none. -/
theorem failures_observeAll (name : String) (recording : Recording Key Mutation)
    (told : List (Nat × Event Key Mutation)) (key : Key) :
    (recording.observeAll name told).failures key =
      recording.failures key + if recording.reporting then reports key (told.map Prod.snd) else 0 := by
  induction told generalizing recording with
  | nil => simp [observeAll, reports]
  | cons entry told ih =>
      have rest := ih (recording.observe name entry.1 entry.2)
      rw [reporting_observe, failures_observe] at rest
      have both : reports key ((entry :: told).map Prod.snd) =
          reports key [entry.2] + reports key (told.map Prod.snd) :=
        reports_append key [entry.2] _
      rw [both]
      refine Eq.trans rest ?_
      split <;> omega

end Recording

/-- A key was abandoned, a mutation of it was accepted again, and that key was discarded again. -/
inductive Relapses {Key Mutation : Type} (key : Key) : List (Event Key Mutation) → Prop
  | intro {past between rest : List (Event Key Mutation)} {failure : FlushFailure}
      {mutation : Mutation} {joined : Bool} (again : rest.filterMap Event.loss? ≠ []) :
      Relapses key (past ++ .abandoned key failure ::
        (between ++ .accepted key mutation joined :: rest))

/-! ## One key -/

section Losses

variable {Key Mutation : Type} [Mergeable Mutation] {key : Key} {standing later : Standing Mutation}
  {past now : List (Event Key Mutation)}

namespace Standing.Step

/-- When a key is discarded, that is all that happens to it. -/
theorem of_loss (taken : Step key standing later now) {event : Event Key Mutation}
    (member : event ∈ now) (lost : event.loss? ≠ none) :
    later = .idle ∧ now = [event] ∧ ∃ mutation verdict next,
      standing = .flushing mutation (.over verdict) next ∧ verdict ≠ .persisted := by
  cases taken with
  | discard | forsake =>
      obtain rfl := List.mem_singleton.mp member
      exact ⟨rfl, rfl, _, _, _, rfl, by simp⟩
  | backOff =>
      rcases List.mem_cons.mp member with rfl | last
      · exact absurd rfl lost
      · obtain rfl := List.mem_singleton.mp last
        exact absurd rfl lost
  | rest | retry | giveUp | release => simp at member
  | refuse | ignore | enqueue | join | follow | followJoin | start | call | succeed | reject | abandon
  | requeue =>
      obtain rfl := List.mem_singleton.mp member
      exact absurd rfl lost

/-- An idle key stays idle until a mutation of it is accepted. -/
theorem of_untaken (taken : Step key .idle later now) (none : ∀ event ∈ now, event.taken? = none) :
    later = .idle := by
  cases taken with
  | enqueue => simp [Event.taken?] at none
  | rest | refuse | ignore => rfl

end Standing.Step

namespace Batches

/-- Some batch was lost. -/
def Lost (batches : Batches Mutation) : Prop := ∃ batch ∈ batches.settled, batch.kept = false

omit [Mergeable Mutation] in
theorem lost_enter {batches : Batches Mutation} {block : Block Mutation}
    (flying : batches.flying = some block) : (batches.enter .lost).Lost :=
  ⟨⟨block, false⟩, by simp [enter, flying], rfl⟩

omit [Mergeable Mutation] in
/-- Nothing but a loss makes a batch lost. -/
theorem lost_foldl {deeds : List (Deed Mutation)} (spared : .lost ∉ deeds)
    (batches : Batches Mutation) : (deeds.foldl enter batches).Lost ↔ batches.Lost := by
  induction deeds generalizing batches with
  | nil => exact Iff.rfl
  | cons deed deeds ih =>
      rw [List.foldl_cons, ih fun late => spared (List.mem_cons_of_mem _ late)]
      cases deed with
      | accepted | started => exact Iff.rfl
      | persisted => simp [enter, Lost, or_and_right, exists_or]
      | lost => exact absurd List.mem_cons_self spared

end Batches

omit [Mergeable Mutation] in
theorem Event.ends_of_loss {event : Event Key Mutation} (lost : event.loss? ≠ none) :
    event.ends = true := by
  unfold loss? at lost
  split at lost
  · rfl
  · rfl
  · exact absurd rfl lost

omit [Mergeable Mutation] in
theorem Event.deed?_of_loss {event : Event Key Mutation} :
    event.deed? = some .lost ↔ event.loss? ≠ none := by
  match event with
  | .answered _ _ .ok | .answered _ _ .rejected | .answered _ _ .retry | .accepted ..
  | .refused .. | .ignored .. | .pending .. | .started .. | .requeued .. | .called ..
  | .retrying .. | .rejected .. | .abandoned .. | .stray .. | .returned .. => simp [deed?, loss?]

/-- A discarded key stays idle until a mutation of it is accepted, and only after that it can be
discarded again. -/
structure Noted (key : Key) (standing : Standing Mutation) (past : List (Event Key Mutation)) :
    Prop where
  tells : (Batches.of (past.filterMap Event.deed?)).Tells standing past
  lost : (Batches.of (past.filterMap Event.deed?)).Lost ↔ past.filterMap Event.loss? ≠ []
  idle : ∀ front event rest, past = front ++ event :: rest → event.loss? ≠ none →
    (∀ later ∈ rest, later.taken? = none) → standing = .idle
  again : ∀ front event between other rest,
    past = front ++ event :: (between ++ other :: rest) → event.loss? ≠ none →
      other.loss? ≠ none → ∃ later ∈ between, later.taken? ≠ none

theorem Noted.initial : Noted key (.idle : Standing Mutation) ([] : List (Event Key Mutation)) :=
  ⟨.initial, by simp [Batches.of, Batches.empty, Batches.Lost], by simp, by simp⟩

theorem Noted.step (noted : Noted key standing past)
    (taken : Standing.Step key standing later now) : Noted key later (past ++ now) where
  tells := by
    rw [List.filterMap_append, Batches.of_append]
    exact noted.tells.step taken
  lost := by
    rw [List.filterMap_append, List.filterMap_append, Batches.of_append]
    by_cases spared : now.filterMap Event.loss? = []
    · have quiet : Deed.lost ∉ now.filterMap Event.deed? := by
        intro member
        obtain ⟨event, among, deed⟩ := List.mem_filterMap.mp member
        exact Event.deed?_of_loss.mp deed (List.filterMap_eq_nil_iff.mp spared event among)
      rw [Batches.lost_foldl quiet, noted.lost, spared, List.append_nil]
    · obtain ⟨event, member, lost⟩ : ∃ event ∈ now, event.loss? ≠ none := by
        by_contra none
        push Not at none
        exact spared (List.filterMap_eq_nil_iff.mpr none)
      obtain ⟨-, rfl, mutation, verdict, next, rfl, aloft⟩ := taken.of_loss member lost
      have flying := noted.tells.flying
      rw [Standing.flight?_flushing (by simpa using aloft), eq_comm, Option.map_some,
        Option.map_eq_some_iff] at flying
      obtain ⟨block, flying, -⟩ := flying
      rw [List.filterMap_cons_some (Event.deed?_of_loss.mpr lost)]
      simp [Batches.lost_enter flying, spared]
  idle := by
    intro front event rest split lost silent
    rcases earlier_or_now split with ⟨old, rfl, rfl⟩ | ⟨new, rfl, here⟩
    · have still := noted.idle front event old rfl lost
        fun other member => silent other (List.mem_append_left _ member)
      subst still
      exact taken.of_untaken fun other member => silent other (List.mem_append_right _ member)
    · exact (taken.of_loss (by simp [here]) lost).1
  again := by
    intro front event between other rest split lost twice
    rcases earlier_or_now split with ⟨old, rfl, onward⟩ | ⟨new, rfl, here⟩
    · rcases earlier_or_now onward.symm with ⟨before, rfl, rfl⟩ | ⟨before, rfl, told⟩
      · exact noted.again front event between other before rfl lost twice
      · by_contra none
        push Not at none
        have still := noted.idle front event old rfl lost
          fun later member => none later (List.mem_append_left _ member)
        subst still
        have among : other ∈ now := by simp [told]
        obtain ⟨-, -, mutation, verdict, next, impossible, -⟩ := taken.of_loss among twice
        simp at impossible
    · obtain ⟨-, alone, -⟩ := taken.of_loss (by simp [here]) lost
      rw [alone] at here
      cases new with
      | nil => simp at here
      | cons first new => simp at here

end Losses

/-! ## Runs -/

namespace Drain

variable {Key Mutation : Type} [DecidableEq Key] [Mergeable Mutation]
  {actions : List (Action Key Mutation)} {drain : Drain Key Mutation}
  {events : List (Event Key Mutation)} {limit : Nat}

theorem noted_of_run (run : Drain.initial.run? limit actions = some (drain, events)) (key : Key) :
    Noted key (drain.standing key) (history key events) :=
  standing_induction (motive := Noted key) .initial (fun _ _ _ _ => Noted.step) run

theorem Step.of_accepted {next : Drain Key Mutation} {action : Action Key Mutation}
    {now : List (Event Key Mutation)} (taken : Step limit drain action next now) {key : Key}
    {mutation : Mutation} {joined : Bool} (accepted : .accepted key mutation joined ∈ now) :
    action = .submit key mutation ∧ drain.table.closed = false ∧
      ∀ failure, .abandoned key failure ∉ now := by
  cases taken with
  | enqueue opened | join opened =>
      obtain ⟨rfl, rfl, rfl⟩ : key = _ ∧ mutation = _ ∧ joined = _ := by simpa using accepted
      exact ⟨rfl, opened, by simp⟩
  | collect parked held released =>
      obtain ⟨rfl, rfl⟩ := Prod.ext_iff.mp released
      simpa using mem_collect accepted
  | _ => simp at accepted

/-- A mutation that is accepted after its key was abandoned comes after the request to shut down,
before the loop has noticed it. -/
theorem accepted_after_abandoned
    (run : Drain.initial.run? limit actions = some (drain, events)) {key : Key}
    {past between rest : List (Event Key Mutation)} {failure : FlushFailure} {mutation : Mutation}
    {joined : Bool} (reported : history key events =
      past ++ .abandoned key failure :: (between ++ .accepted key mutation joined :: rest)) :
    ∃ front back, actions = front ++ .submit key mutation :: back ∧ .cancel ∈ front ∧
      ∃ middle told, Drain.initial.run? limit front = some (middle, told) ∧
        middle.table.closed = false := by
  rw [← List.cons_append, ← List.append_assoc] at reported
  obtain ⟨front, action, back, rfl, middle, told, before, next, now, taken, -, -, new, more, here,
    same, -⟩ := exists_action run reported
  have among : .accepted key mutation joined ∈ history key now := by simp [here]
  obtain ⟨rfl, opened, silent⟩ := taken.of_accepted (mem_history.mp among).1
  refine ⟨front, back, rfl, ?_, middle, told, before, opened⟩
  by_contra going
  have earlier : .abandoned key failure ∈ history key told ++ new := by simp [← same]
  rcases List.mem_append.mp earlier with early | late
  · exact (running_of_run before going).abandoned key failure (mem_history.mp early).1
  · have present : .abandoned key failure ∈ history key now := by simp [here, late]
    exact silent failure (mem_history.mp present).1

/-- A rejected key is not discarded again. -/
theorem losses_of_rejected (run : Drain.initial.run? limit actions = some (drain, events))
    {key : Key} {past rest : List (Event Key Mutation)} {failure : FlushFailure}
    (reported : history key events = past ++ .rejected key failure :: rest) :
    rest.filterMap Event.loss? = [] := by
  obtain ⟨front, action, back, rfl, middle, told, before, next, now, taken, later, onward, new, more,
    here, -, rfl⟩ := exists_action run reported
  have consistent := consistent_of_run before
  have among : .rejected key failure ∈ history key now := by simp [here]
  obtain ⟨-, alone, -⟩ := (consistent.standing_step taken key).of_loss among (by simp [Event.loss?])
  have dropped : key ∈ next.table.dropped :=
    (taken.mem_dropped key).mpr (.inr ⟨failure, (mem_history.mp among).1⟩)
  have turned := ((consistent.step taken).run_of_dropped onward dropped).2
  obtain rfl : more = [] := by
    rw [alone] at here
    cases new with
    | nil => simpa using here
    | cons first new => simp at here
  refine List.filterMap_eq_nil_iff.mpr fun event member => ?_
  obtain ⟨mutation, rfl | rfl⟩ := turned event member <;> rfl

/-- A key that is reported twice relapsed. -/
theorem relapses_of_reports (run : Drain.initial.run? limit actions = some (drain, events))
    {key : Key} (twice : 1 < reports key events) : Relapses key (history key events) := by
  rw [reports_eq] at twice
  obtain ⟨first, rest, losses⟩ := List.exists_cons_of_length_pos (Nat.zero_lt_of_lt twice)
  rw [losses, List.length_cons] at twice
  obtain ⟨second, others, rfl⟩ := List.exists_cons_of_length_pos (Nat.lt_of_succ_lt_succ twice)
  obtain ⟨past, event, tail, split, -, lost, more⟩ := List.filterMap_eq_cons_iff.mp losses
  obtain ⟨between, other, rest, rfl, -, again, -⟩ := List.filterMap_eq_cons_iff.mp more
  obtain ⟨later, member, taken⟩ :=
    (noted_of_run run key).again past event between other rest split (by simp [lost])
      (by simp [again])
  have about : event.key? = some key := (mem_history.mp (by rw [split]; simp)).2
  rcases Event.of_ends about (Event.ends_of_loss (by simp [lost])) with
    ⟨mutation, rfl⟩ | ⟨failure, rfl⟩ | ⟨failure, rfl⟩
  · simp [Event.loss?] at lost
  · rw [losses_of_rejected run split] at more
    simp at more
  · obtain ⟨before, after, rfl⟩ := List.append_of_mem member
    obtain ⟨mutation, accepted⟩ := Option.ne_none_iff_exists'.mp taken
    obtain ⟨owner, joined, rfl⟩ := Event.eq_accepted accepted
    have own : .accepted owner mutation joined ∈ history key events := by
      rw [split]
      simp
    obtain rfl : owner = key := Option.some.inj (mem_history.mp own).2
    rw [split, List.append_assoc, List.cons_append]
    exact ⟨by simp [List.filterMap_cons_some again]⟩

omit [Mergeable Mutation] in
theorem reports_of_relapses {key : Key} (relapses : Relapses key (history key events)) :
    1 < reports key events := by
  rw [reports_eq]
  generalize history key events = past at relapses
  obtain ⟨again⟩ := relapses
  have positive := List.length_pos_iff.mpr again
  simp only [List.filterMap_append, List.filterMap_cons, Event.loss?, List.length_append,
    List.length_cons]
  omega

/-- Once nothing of a key is left, every mutation of it that was accepted is in a batch that was
persisted or lost. -/
theorem taken_of_idle (run : Drain.initial.run? limit actions = some (drain, events)) {key : Key}
    (idle : drain.standing key = .idle) :
    (history key events).filterMap Event.taken? =
      (Batches.of (deeds key events)).settled.flatMap (·.block.mutations) := by
  have tells := (noted_of_run run key).tells
  have flying := tells.flying
  have queued := tells.queued
  rw [idle, eq_comm] at flying queued
  have landed : (Batches.of (deeds key events)).flying = none := Option.map_eq_none_iff.mp flying
  have served : (Batches.of (deeds key events)).queued = none := Option.map_eq_none_iff.mp queued
  have taken : (history key events).filterMap Event.taken? =
      (Batches.of (deeds key events)).mutations := tells.taken
  rw [taken, Batches.mutations, landed, served]
  simp

/-- When the loop has exited every mutation that was accepted is in a batch that was persisted by a
call or was lost.  A key is reported if a batch of it was lost, and only then, and who is to be told
is told of each report.  One report is all there is unless the key relapses: a mutation of it was
accepted after its abandonment, between the request to shut down and the close, and was discarded
as well. -/
theorem reported_once_iff (configured : Nat)
    (run : Drain.initial.run? (places configured) actions = some (drain, events))
    (exited : drain.stage = .exited) (key : Key) :
    (∀ name (recording : Recording Key Mutation) told, told.map Prod.snd = events →
        (recording.observeAll name told).failures key =
          recording.failures key + if recording.reporting then reports key events else 0) ∧
      (history key events).filterMap Event.taken? =
        (Batches.of (deeds key events)).settled.flatMap (·.block.mutations) ∧
      (history key events).filterMap Event.persisted? =
        (Batches.of (deeds key events)).persisted ∧
      (0 < reports key events ↔ (Batches.of (deeds key events)).Lost) ∧
      (1 < reports key events ↔ Relapses key (history key events)) ∧
      ∀ past failure between mutation joined rest,
        history key events =
            past ++ .abandoned key failure :: (between ++ .accepted key mutation joined :: rest) →
          ∃ front back, actions = front ++ .submit key mutation :: back ∧ .cancel ∈ front ∧
            ∃ middle told, Drain.initial.run? (places configured) front = some (middle, told) ∧
              middle.table.closed = false := by
  have noted := noted_of_run run key
  have idle : drain.standing key = .idle :=
    standing_of_isIdle (drained_of_exited (places_pos configured) run exited).idle key
  refine ⟨?_, taken_of_idle run idle, noted.tells.persisted, ?_,
    ⟨relapses_of_reports run, reports_of_relapses⟩, ?_⟩
  · rintro name recording told rfl
    exact recording.failures_observeAll name told key
  · rw [reports_eq, List.length_pos_iff, ← noted.lost]
    rfl
  · intro past failure between mutation joined rest reported
    exact accepted_after_abandoned run reported

/-- A flush is abandoned with a mutation behind it, and its key is reported once. -/
theorem callBackingOff_is_reported_once :
    ∃ drain events, Drain.initial.run? (places 0) callBackingOff = some (drain, events) ∧
      drain.stage = .exited ∧ (Batches.of (deeds 1 events)).Lost ∧ reports 1 events = 1 ∧
        ¬Relapses 1 (history 1 events) := by
  have outcome : ((Drain.initial.run? (places 0) callBackingOff).map fun outcome =>
      (outcome.1.stage, reports 1 outcome.2)) = some (.exited, 1) := by decide +kernel
  obtain ⟨⟨drain, events⟩, run, found⟩ := Option.map_eq_some_iff.mp outcome
  obtain ⟨exited, once⟩ := Prod.mk.inj found
  dsimp only at once
  obtain ⟨-, -, -, lost, again, -⟩ := reported_once_iff 0 run exited 1
  refine ⟨drain, events, run, exited, lost.mp (by omega), once, fun relapses => ?_⟩
  have twice := again.mpr relapses
  omega

/-- A key is abandoned, and a mutation that is accepted before the loop closes the table is
abandoned too. -/
def callAbandonedTwice : List (Action Nat (List Nat)) :=
  [.submit 1 [10], .start, .park, .call 1, .answer 1 (.error (.transient "down")), .cancel,
    .giveUp 1, .collect 1, .submit 1 [11], .start, .park, .notice, .park, .call 1,
    .answer 1 (.error (.transient "down")), .collect 1, .exit]

/-- A recording that is to be told of discarded keys. -/
def witnessing : Recording Nat (List Nat) := ⟨.empty, .create 0 [], true, [], []⟩

/-- Two abandoned flushes of one key are two reports of it. -/
theorem callAbandonedTwice_is_reported_twice :
    ∃ drain events, Drain.initial.run? (places 0) callAbandonedTwice = some (drain, events) ∧
      drain.stage = .exited ∧ (witnessing.observeAll "" (events.map (0, ·))).failures 1 = 2 := by
  have outcome : ((Drain.initial.run? (places 0) callAbandonedTwice).map fun outcome =>
      (outcome.1.stage, reports 1 outcome.2)) = some (.exited, 2) := by decide +kernel
  obtain ⟨⟨drain, events⟩, run, found⟩ := Option.map_eq_some_iff.mp outcome
  obtain ⟨exited, twice⟩ := Prod.mk.inj found
  have same : (events.map ((0 : Nat), ·)).map Prod.snd = events := by simp
  refine ⟨drain, events, run, exited, ?_⟩
  rw [Recording.failures_observeAll, same, twice]
  rfl

end Drain

end Dispatch
end Intake
