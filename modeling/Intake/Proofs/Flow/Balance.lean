import Intake.Proofs.Flow.Acts
import Mathlib.Tactic

/-!
# The count as a balance

An admission adds to the count, a correction and a completion take from it, and what would take it
below zero leaves it at zero.  So the count is a reflected sum: of all sums over the latest so many
changes it is the largest.  It exceeds the plain sum exactly if something was held at zero, and each
time that happened is reported.
-/

namespace Intake

/-! ## Reflected sums -/

/-- A sum that stays at zero instead of falling below. -/
def reflect (level change : Int) : Int := max (level + change) 0

section Reflected

variable (changes : List Int)

theorem foldl_reflect_concat (level change : Int) :
    (changes ++ [change]).foldl reflect level = reflect (changes.foldl reflect level) change := by
  rw [List.foldl_append, List.foldl_cons, List.foldl_nil]

/-- A reflected sum is the largest sum over the latest so many changes. -/
theorem isGreatest_reflected :
    IsGreatest {sum | ∃ latest, latest <:+ changes ∧ latest.sum = sum}
      (changes.foldl reflect 0) := by
  induction changes using List.reverseRecOn with
  | nil =>
      refine ⟨⟨[], List.suffix_rfl, rfl⟩, ?_⟩
      rintro _ ⟨latest, among, rfl⟩
      rw [List.suffix_nil.mp among]
      exact le_rfl
  | append_singleton earlier change ih =>
      obtain ⟨⟨latest, among, same⟩, bound⟩ := ih
      rw [foldl_reflect_concat, reflect, ← same]
      constructor
      · rcases le_total 0 (latest.sum + change) with grown | held
        · refine ⟨latest ++ [change], List.suffix_concat_iff.mpr (.inr ⟨latest, rfl, among⟩), ?_⟩
          rw [max_eq_left grown, List.sum_append, List.sum_singleton]
        · exact ⟨[], List.nil_suffix, by rw [max_eq_right held, List.sum_nil]⟩
      · rintro _ ⟨others, suffix, rfl⟩
        rcases List.suffix_concat_iff.mp suffix with rfl | ⟨front, rfl, shorter⟩
        · exact le_max_right _ _
        · have less := bound ⟨front, shorter, rfl⟩
          rw [List.sum_append, List.sum_singleton]
          rw [← same] at less
          omega

theorem sum_le_reflected : changes.sum ≤ changes.foldl reflect 0 :=
  (isGreatest_reflected changes).2 ⟨changes, List.suffix_rfl, rfl⟩

/-- A reflected sum is the plain one exactly if the plain one never falls below zero. -/
theorem reflected_eq_sum_iff :
    changes.foldl reflect 0 = changes.sum ↔ ∀ earliest, earliest <+: changes → 0 ≤ earliest.sum := by
  obtain ⟨⟨latest, ⟨front, split⟩, same⟩, bound⟩ := isGreatest_reflected changes
  constructor
  · rintro plain earliest ⟨rest, rfl⟩
    have less := bound ⟨rest, List.suffix_append _ _, rfl⟩
    rw [plain, List.sum_append] at less
    omega
  · intro solvent
    have positive := solvent front ⟨latest, split⟩
    have less := sum_le_reflected changes
    have whole : changes.sum = front.sum + latest.sum := by rw [← split, List.sum_append]
    omega

end Reflected

/-- What a signal adds to the count. -/
def Signal.change : Signal → Int
  | .admitted count => count.toNat
  | .duplicate count => -count.toNat
  | .completed => -1

namespace Governor

/-! ## One move of the count -/

/-- A signal that moves the count, and the governor that it meets. -/
structure Move where
  met : Governor
  signal : Signal

namespace Move

/-- What it adds to the count. -/
def change (move : Move) : Int := move.signal.change

/-- Why the count was held at zero, if it was: a correction is larger than the count that it meets, or
a completion meets none. -/
def shortfall? (move : Move) : Option Shortfall :=
  match move.signal with
  | .admitted _ => none
  | .duplicate count => if move.met.inFlight < count then some .duplicate else none
  | .completed => if move.met.inFlight = 0 then some .completion else none

/-- What is reported of it. -/
def report (move : Move) : List Event := (move.met.count move.signal).2.1

/-- The count that it leaves. -/
def level (move : Move) : UInt64 := (move.met.count move.signal).1.inFlight

variable (move : Move)

/-- The count takes the change, but stays at zero instead of falling below. -/
theorem toNat_level (room : move.met.Room move.signal) :
    (move.level.toNat : Int) = reflect move.met.inFlight.toNat move.change := by
  obtain ⟨met, signal⟩ := move
  cases signal with
  | admitted count =>
      change ((met.inFlight + count).toNat : Int) = max _ 0
      rw [room.toNat_add, change, Signal.change]
      omega
  | duplicate count =>
      change ((saturatingSub met.inFlight count).toNat : Int) = max _ 0
      rw [toNat_saturatingSub, change, Signal.change]
      dsimp only
      omega
  | completed =>
      rw [reflect, change, Signal.change, level]
      by_cases empty : met.inFlight = 0
      · simp [Governor.count, empty]
      · have difference := toNat_sub_one empty
        simp only [Governor.count, empty, if_false]
        omega

/-- Something is held at zero exactly if the plain sum would fall below. -/
theorem shortfall?_eq_none_iff :
    move.shortfall? = none ↔ 0 ≤ move.met.inFlight.toNat + move.change := by
  obtain ⟨met, signal⟩ := move
  cases signal with
  | admitted count =>
      simp only [shortfall?, change, Signal.change, true_iff]
      omega
  | duplicate count =>
      simp only [shortfall?, change, Signal.change, ite_eq_right_iff, reduceCtorEq, imp_false,
        UInt64.lt_iff_toNat_lt]
      omega
  | completed =>
      simp only [shortfall?, change, Signal.change, ite_eq_right_iff, reduceCtorEq, imp_false,
        ← UInt64.toNat_inj, UInt64.toNat_zero]
      omega

theorem count_shortfall_report (cause : Shortfall) :
    move.report.count (.shortfall cause) = if move.shortfall? = some cause then 1 else 0 := by
  obtain ⟨met, signal⟩ := move
  cases signal with
  | admitted count => simp [report, shortfall?, Governor.count]
  | duplicate count =>
      by_cases larger : met.inFlight < count
      · simp [report, shortfall?, Governor.count, larger, List.count_cons]
      · simp [report, shortfall?, Governor.count, larger]
  | completed =>
      by_cases empty : met.inFlight = 0
      · simp [report, shortfall?, Governor.count, empty, List.count_cons]
      · simp [report, shortfall?, Governor.count, empty]

end Move

/-- The count that an event shows. -/
def Event.level? : Event → Option UInt64
  | .counted inFlight => some inFlight
  | .shortfall _ | .obeyed _ | .refused _ _ => none

/-- The count that was shown last, or else the one from before. -/
def lastLevel (level : UInt64) (events : List Event) : UInt64 :=
  (events.filterMap Event.level?).getLast?.getD level

theorem lastLevel_append (level : UInt64) (front back : List Event) :
    lastLevel level (front ++ back) = lastLevel (lastLevel level front) back := by
  simp only [lastLevel, List.filterMap_append, List.getLast?_append]
  cases (back.filterMap Event.level?).getLast? <;> rfl

/-- A move shows the count that it leaves, unless it leaves the count as it was. -/
theorem Move.lastLevel_report (move : Move) (room : move.met.Room move.signal) :
    lastLevel move.met.inFlight move.report = move.level := by
  obtain ⟨met, signal⟩ := move
  cases signal with
  | admitted count => exact if_pos room
  | duplicate count =>
      rw [report, Governor.count, lastLevel_append]
      rfl
  | completed =>
      rw [report, level]
      by_cases empty : met.inFlight = 0 <;> simp [Governor.count, empty, lastLevel, Event.level?]

/-! ## The moves among acts -/

/-- The moves of the count among acts. -/
def moves : Governor → List Act → List Move
  | _, [] => []
  | governor, .count signal :: rest =>
      ⟨governor, signal⟩ :: moves (governor.perform (.count signal)) rest
  | governor, .tell command name :: rest => moves (governor.perform (.tell command name)) rest

theorem moves_append (governor : Governor) (front back : List Act) :
    governor.moves (front ++ back) =
      governor.moves front ++ (governor.performAll front).moves back := by
  induction front generalizing governor with
  | nil => rfl
  | cons act front ih =>
      cases act with
      | count signal => exact congrArg (_ :: ·) (ih _)
      | tell command name => exact ih _

section Fitting

variable {governor : Governor} {acts : List Act} (fits : Along Fitting governor acts)
include fits

/-- The count is the reflected sum of its changes. -/
theorem inFlight_performAll :
    ((governor.performAll acts).inFlight.toNat : Int) =
      ((governor.moves acts).map Move.change).foldl reflect governor.inFlight.toNat := by
  induction acts generalizing governor with
  | nil => rfl
  | cons act acts ih =>
      rw [performAll_cons, ih fits.2]
      cases act with
      | count signal =>
          have moved : ((governor.perform (.count signal)).inFlight.toNat : Int) = _ :=
            Move.toNat_level ⟨governor, signal⟩ fits.1
          rw [moved]
          rfl
      | tell command name => rfl

/-- Nothing is held at zero exactly if no plain sum falls below. -/
theorem shortfalls_eq_nil_iff :
    (governor.moves acts).filterMap Move.shortfall? = [] ↔
      ∀ earliest, earliest <+: (governor.moves acts).map Move.change →
        0 ≤ governor.inFlight.toNat + earliest.sum := by
  induction acts generalizing governor with
  | nil => simp [moves]
  | cons act acts ih =>
      cases act with
      | tell command name => exact ih fits.2
      | count signal =>
          have moved : ((governor.perform (.count signal)).inFlight.toNat : Int) =
              max (governor.inFlight.toNat + signal.change) 0 :=
            Move.toNat_level ⟨governor, signal⟩ fits.1
          have first : Move.shortfall? ⟨governor, signal⟩ = none ↔
              0 ≤ governor.inFlight.toNat + signal.change :=
            Move.shortfall?_eq_none_iff ⟨governor, signal⟩
          have later := ih fits.2
          rw [moves, List.map_cons, List.filterMap_eq_nil_iff, List.forall_mem_cons,
            ← List.filterMap_eq_nil_iff, first, later, moved]
          constructor
          · -- As long as nothing was held, the plain sum is the one that goes on.
            rintro ⟨now, on⟩ earliest among
            rcases List.prefix_cons_iff.mp among with rfl | ⟨rest, rfl, shorter⟩
            · rw [List.sum_nil]
              omega
            · have positive := on rest shorter
              rw [max_eq_left now] at positive
              rw [List.sum_cons, ← Int.add_assoc]
              exact positive
          · intro solvent
            have now := solvent [signal.change] (List.cons_prefix_cons.mpr ⟨rfl, List.nil_prefix⟩)
            rw [List.sum_singleton] at now
            refine ⟨now, fun rest shorter => ?_⟩
            have positive := solvent (signal.change :: rest)
              (List.cons_prefix_cons.mpr ⟨rfl, shorter⟩)
            rw [List.sum_cons, ← Int.add_assoc] at positive
            rwa [max_eq_left now]

/-- The count that was shown last is the count. -/
theorem lastLevel_reported :
    lastLevel governor.inFlight ((governor.moves acts).flatMap Move.report) =
      (governor.performAll acts).inFlight := by
  induction acts generalizing governor with
  | nil => rfl
  | cons act acts ih =>
      cases act with
      | tell command name => exact ih fits.2
      | count signal =>
          have shown := Move.lastLevel_report ⟨governor, signal⟩ fits.1
          rw [moves, List.flatMap_cons, lastLevel_append, shown]
          exact ih fits.2

end Fitting

theorem count_shortfall_reports (moves : List Move) (cause : Shortfall) :
    (moves.flatMap Move.report).count (.shortfall cause) =
      (moves.filterMap Move.shortfall?).count cause := by
  induction moves with
  | nil => rfl
  | cons move rest ih =>
      rw [List.flatMap_cons, List.count_append, ih, Move.count_shortfall_report]
      cases short : move.shortfall? with
      | none => rw [List.filterMap_cons_none short]; simp
      | some other =>
          rw [List.filterMap_cons_some short, List.count_cons]
          simp only [Option.some.injEq, beq_iff_eq]
          omega

/-! ## What a signal reports -/

/-- Whether an event is about the count. -/
def Event.ofCount (event : Event) : Bool := ¬event.IsReply

section Reports

variable {raise : Signal → Governor → Governor × List Event}
  {acts : Signal → Governor → List Act}

/-- Performing the acts of a signal comes to raising it, and what it reports of the count are their
moves. -/
structure Reports (raise : Signal → Governor → Governor × List Event)
    (acts : Signal → Governor → List Act) : Prop where
  replays : Replays raise acts
  events : ∀ signal governor, (raise signal governor).2.filter Event.ofCount =
    (governor.moves (acts signal governor)).flatMap Move.report

theorem filter_report (move : Move) : move.report.filter Event.ofCount = move.report := by
  obtain ⟨met, signal⟩ := move
  cases signal with
  | admitted count => rfl
  | duplicate count =>
      unfold Move.report Governor.count
      dsimp only
      split <;> rfl
  | completed =>
      unfold Move.report Governor.count
      dsimp only
      split <;> rfl

theorem ofCount_tell (governor : Governor) (command : Command) (name : String) :
    (governor.tell command name).2.ofCount = false := by
  unfold tell
  dsimp only
  split <;> rfl

theorem Reports.all (reports : Reports raise acts) (signals : List Signal) (governor : Governor) :
    (raiseAll raise signals governor).2.filter Event.ofCount =
      (governor.moves (actsAll acts signals governor)).flatMap Move.report := by
  induction signals generalizing governor with
  | nil => rfl
  | cons signal rest ih =>
      rw [raiseAll, actsAll, moves_append, List.flatMap_append, List.filter_append,
        reports.events, ih, reports.replays]

/-- The event of a command is about no count, so it may come after what the consumer raises. -/
theorem Reports.pass (reports : Reports raise acts) (command : Command) (names : List String)
    (governor : Governor) :
    (pass raise command names governor).2.filter Event.ofCount =
      (governor.moves (passActs acts command names governor)).flatMap Move.report := by
  induction names generalizing governor with
  | nil => rfl
  | cons name rest ih =>
      unfold Governor.pass passActs
      split
      · dsimp only
        split
        · have told := governor.ofCount_tell command name
          have turn := performAll_turn reports.replays command name governor
          rw [moves_append, List.flatMap_append, turn, List.filter_append, reports.all,
            List.filter_cons_of_neg (by rw [told]; decide), ih]
          rfl
        · exact ih governor
      · rfl

theorem Reports.signal (reports : Reports raise acts) :
    Reports (raiseWith raise) (signalActs acts) := by
  refine ⟨performAll_signalActs reports.replays, fun signal governor => ?_⟩
  have own := filter_report ⟨governor, signal⟩
  have report : Move.report ⟨governor, signal⟩ = (governor.count signal).2.1 := rfl
  have moved : governor.perform (.count signal) = (governor.count signal).1 := rfl
  unfold raiseWith signalActs
  split
  · generalize governor.count signal = outcome at moved report
    obtain ⟨next, events, command⟩ := outcome
    dsimp only at moved report
    cases command with
    | none =>
        dsimp only
        rw [moves, List.flatMap_cons, ← report, own]
        exact (List.append_nil _).symm
    | some command =>
        dsimp only
        rw [moves, List.flatMap_cons, moved, List.filter_append, reports.pass, ← report, own]
  · rfl

end Reports

theorem reports_actsNested (depth : Nat) : Reports (raiseNested depth) (actsNested depth) := by
  induction depth with
  | zero => exact .signal ⟨fun _ _ => rfl, fun _ _ => rfl⟩
  | succ depth ih => exact .signal ih

/-- What is reported of the count are the moves among the acts. -/
theorem reports_acts : Reports raise acts :=
  ⟨performAll_acts, fun signal governor => (reports_actsNested _).events signal governor⟩

/-! ## What the metrics show -/

theorem gauge_notices (metrics : Metrics) (event : Event) :
    (metrics.recordAll event.notices).gauge Event.inFlightSeries =
      event.level?.or (metrics.gauge Event.inFlightSeries) := by
  cases event with
  | counted level => exact metrics.gauges.get?_insert_self _ _
  | shortfall | obeyed | refused =>
      exact Metrics.gauge_recordAll_of_not_mem fun value set => by simp [Event.notices] at set

/-- The gauge shows the count that was reported last. -/
theorem gauge_recordAll (metrics : Metrics) (events : List Event) :
    (metrics.recordAll (events.flatMap Event.notices)).gauge Event.inFlightSeries =
      (events.filterMap Event.level?).getLast?.or (metrics.gauge Event.inFlightSeries) := by
  induction events using List.reverseRecOn with
  | nil => rfl
  | append_singleton events event ih =>
      have whole : metrics.recordAll ((events ++ [event]).flatMap Event.notices) =
          (metrics.recordAll (events.flatMap Event.notices)).recordAll event.notices := by
        rw [List.flatMap_append, List.flatMap_singleton, Metrics.recordAll, List.foldl_append]
        rfl
      rw [whole, gauge_notices, ih, List.filterMap_append, List.getLast?_append, Option.or_assoc]
      cases event with
      | counted | shortfall | obeyed | refused => rfl

theorem filterMap_ofCount (events : List Event) :
    (events.filter Event.ofCount).filterMap Event.level? = events.filterMap Event.level? := by
  rw [List.filterMap_filter]
  congr 1
  funext event
  cases event with
  | counted | shortfall | obeyed | refused => rfl

theorem count_ofCount (events : List Event) (cause : Shortfall) :
    (events.filter Event.ofCount).count (.shortfall cause) = events.count (.shortfall cause) :=
  List.count_filter rfl

/-- After a signal that changes the count the gauge shows it. -/
theorem gauge_raise {governor : Governor} {signal : Signal}
    (fits : Along Fitting governor (governor.acts signal))
    (moved : (governor.raise signal).1.inFlight ≠ governor.inFlight) (metrics : Metrics) :
    (metrics.recordAll ((governor.raise signal).2.flatMap Event.notices)).gauge
      Event.inFlightSeries = some (governor.raise signal).1.inFlight := by
  have last := lastLevel_reported fits
  rw [← reports_acts.events, lastLevel, filterMap_ofCount, performAll_acts] at last
  rw [gauge_recordAll]
  cases shown : ((governor.raise signal).2.filterMap Event.level?).getLast? with
  | none =>
      rw [shown] at last
      exact absurd last.symm moved
  | some level =>
      rw [shown] at last
      exact congrArg some last

/-! ## Runs -/

theorem actsAll_append {acts : Signal → Governor → List Act} (front back : List Signal)
    (governor : Governor) :
    actsAll acts (front ++ back) governor =
      actsAll acts front governor ++
        actsAll acts back (governor.performAll (actsAll acts front governor)) := by
  induction front generalizing governor with
  | nil => rfl
  | cons signal front ih =>
      rw [List.cons_append, actsAll, actsAll, ih, performAll_append, List.append_assoc]

/-- The moves of the count when signals are raised one after the other, with those that resumed
consumers raise in between. -/
def movesAll (governor : Governor) (signals : List Signal) : List Move :=
  governor.moves (actsAll acts signals governor)

section Calm

variable {governor : Governor}

theorem moves_passActs {acts : Signal → Governor → List Act} {command : Command}
    {names : List String}
    (silent : ∀ name ∈ names, (governor.fleet.consumer name).raised command = []) :
    governor.moves (passActs acts command names governor) = [] := by
  induction names generalizing governor with
  | nil => rfl
  | cons name rest ih =>
      obtain ⟨nothing, others⟩ := List.forall_mem_cons.mp silent
      unfold passActs
      split
      · dsimp only
        split
        · rw [nothing]
          exact ih (silent_tell name others)
        · exact ih others
      · rfl

/-- Among calm consumers a signal moves the count once. -/
theorem moves_acts (enabled : governor.settings.enabled = true) (calm : governor.Calm)
    (signal : Signal) : governor.moves (governor.acts signal) = [⟨governor, signal⟩] := by
  have acted : ∃ inner, governor.acts signal = signalActs inner signal governor := by
    unfold Governor.acts
    cases governor.fleet.consumers.size with
    | zero => exact ⟨_, rfl⟩
    | succ depth => exact ⟨_, rfl⟩
  obtain ⟨inner, same⟩ := acted
  rw [same, signalActs_eq, enabled, if_pos rfl, moves]
  cases told : governor.given signal with
  | none => rfl
  | some command =>
      have silent := calm.quiet signal command (given_eq_some told).1
      rw [perform, count_of_enabled enabled]
      exact congrArg (_ :: ·) (moves_passActs silent)

/-- Among calm consumers nothing moves the count but the signals. -/
theorem movesAll_of_calm (enabled : governor.settings.enabled = true) (calm : governor.Calm)
    (signals : List Signal) : (governor.movesAll signals).map Move.signal = signals := by
  induction signals generalizing governor with
  | nil => rfl
  | cons signal rest ih =>
      have kept := kept_raise calm signal
      have later := ih (by rwa [kept.settings]) (kept.calm calm)
      unfold movesAll at later ⊢
      rw [actsAll, moves_append, moves_acts enabled calm, performAll_acts, List.map_append, later]
      rfl

end Calm

/-- How the count of a governor and what it shows follow from the changes that signals bring. -/
structure Balanced (governor : Governor) (signals : List Signal) : Prop where
  /-- The count is the largest sum over the latest so many changes. -/
  largest : IsGreatest
    {sum | ∃ latest, latest <:+ (governor.movesAll signals).map Move.change ∧ latest.sum = sum}
    ((raiseAll raise signals governor).1.inFlight.toNat : Int)
  /-- It is never below the plain sum. -/
  covers : ((governor.movesAll signals).map Move.change).sum ≤
    (raiseAll raise signals governor).1.inFlight.toNat
  /-- It is the plain sum exactly if that never falls below zero. -/
  exact_iff : ((raiseAll raise signals governor).1.inFlight.toNat : Int) =
      ((governor.movesAll signals).map Move.change).sum ↔
    ∀ earliest, earliest <+: (governor.movesAll signals).map Move.change → 0 ≤ earliest.sum
  /-- The plain sum never falls below zero exactly if no move was held at zero. -/
  held_iff : (governor.movesAll signals).filterMap Move.shortfall? = [] ↔
    ∀ earliest, earliest <+: (governor.movesAll signals).map Move.change → 0 ≤ earliest.sum
  /-- After each signal that changed the count the gauge is set to it, and shown as a double. -/
  shown : ∀ front signal back, signals = front ++ signal :: back → ∀ metrics : Metrics,
    let before := (raiseAll raise front governor).1
    let after := metrics.recordAll ((before.raise signal).2.flatMap Event.notices)
    (before.raise signal).1.inFlight ≠ before.inFlight →
      after.gauge Event.inFlightSeries = some (before.raise signal).1.inFlight ∧
      ("import_flow_in_flight_records",
        Telemetry.gaugeText (before.raise signal).1.inFlight) ∈ Telemetry.shown after
  /-- Each move that was held at zero is counted by its cause. -/
  counted : ∀ (metrics : Metrics) cause,
    (metrics.recordAll ((raiseAll raise signals governor).2.flatMap Event.notices)).counter
        (Event.shortfallSeries cause) =
      metrics.counter (Event.shortfallSeries cause) +
        ((governor.movesAll signals).filterMap Move.shortfall?).count cause

/-- From zero the count stays the balance of the signals, with those that resumed consumers raise in
between, as long as no admission takes it beyond its greatest value. -/
theorem count_is_balanced {governor : Governor} (enabled : governor.settings.enabled = true)
    (empty : governor.inFlight = 0) {signals : List Signal}
    (fits : Along Fitting governor (actsAll acts signals governor)) :
    governor.Balanced signals ∧
      (governor.Calm → (governor.movesAll signals).map Move.signal = signals) := by
  have count : ((raiseAll raise signals governor).1.inFlight.toNat : Int) =
      ((governor.movesAll signals).map Move.change).foldl reflect 0 := by
    rw [← performAll_actsAll performAll_acts, inFlight_performAll fits, empty]
    rfl
  refine ⟨⟨?_, ?_, ?_, ?_, ?_, ?_⟩, fun calm => movesAll_of_calm enabled calm signals⟩
  · rw [count]
    exact isGreatest_reflected _
  · rw [count]
    exact sum_le_reflected _
  · rw [count]
    exact reflected_eq_sum_iff _
  · have solvent := shortfalls_eq_nil_iff fits
    simp only [empty, UInt64.toNat_zero, Int.natCast_zero, zero_add] at solvent
    exact solvent
  · rintro front signal back rfl metrics before after moved
    have parts := fits
    rw [actsAll_append] at parts
    have last := (along_append.mp parts).2
    rw [performAll_actsAll performAll_acts] at last
    have set := gauge_raise (along_append.mp last).1 moved metrics
    exact ⟨set, Telemetry.mem_shown_of_gauge set⟩
  · intro metrics cause
    rw [Metrics.counter_recordAll, count_notices, ← count_ofCount, reports_acts.all,
      count_shortfall_reports]
    rfl

/-- A governor with a consumer that admits two records each time that it was resumed. -/
def refilling : Governor :=
  .create .standard "chunks" ((Fleet.empty.register "chunks" "a").setAfterResume "a" [.admitted 2])

/-- A completion with nothing in flight, a chunk that is taken back in part, and a correction that
is too large. -/
def overdrawn : List Signal := [.completed, .admitted 30, .duplicate 25, .duplicate 9]

/-- Both shortfalls keep the count at zero, three above the plain sum. -/
theorem overdrawn_is_balanced :
    refilling.Balanced overdrawn ∧
      (refilling.movesAll overdrawn).map Move.change = [-1, 30, -25, 2, -9] ∧
      (refilling.movesAll overdrawn).filterMap Move.shortfall? = [.completion, .duplicate] ∧
      (raiseAll raise overdrawn refilling).1.inFlight = 0 := by
  have fits : Along Fitting refilling (actsAll acts overdrawn refilling) := by decide +kernel
  exact ⟨(count_is_balanced rfl rfl fits).1, by decide +kernel, by decide +kernel,
    by decide +kernel⟩

end Governor
end Intake
