import Intake.Proofs.Flow.Acts
import Intake.Proofs.Flow.Hysteresis

/-!
# Admissions in the middle of a resume

A consumer that was resumed may admit chunks at once, while the others still wait to be resumed.  If
those chunks take the count to the high watermark, every consumer is paused before the pass goes on,
and the pass then ends.  So a resume that is overtaken by admissions undoes none of the pauses.
`Overtaken` says what happens to a consumer in between, and composes.
-/

namespace Intake
namespace Governor

/-- The governed consumers raise admissions only. -/
def Admitting (governor : Governor) : Prop :=
  ∀ name ∈ governor.fleet.registry.handles governor.topic,
    ∀ signal ∈ (governor.fleet.consumer name).afterResume, ∃ count, signal = .admitted count

theorem Kept.admitting {before after : Governor} (kept : Kept before after)
    (admitting : before.Admitting) : after.Admitting := by
  intro name listed
  rw [kept.registry, kept.topic] at listed
  rw [kept.afterResume]
  exact admitting name listed

/-- A consumer of the governed topic that does not fail. -/
structure Commands (governor : Governor) (name : String) : Prop where
  listed : name ∈ governor.fleet.registry.handles governor.topic
  reliable : (governor.fleet.consumer name).failing = false

theorem Commands.performAll {governor : Governor} {name : String}
    (commands : governor.Commands name) (acts : List Act) :
    (governor.performAll acts).Commands name where
  listed := by
    have kept := governor.kept_performAll acts
    rw [kept.registry, kept.topic]
    exact commands.listed
  reliable := by rw [failing_performAll, commands.reliable]

/-- A pass that pauses leaves none out. -/
theorem Commands.paused_prompt {governor : Governor} {name : String}
    (commands : governor.Commands name) :
    ((governor.fleet.prompt .pause
      (governor.fleet.registry.handles governor.topic)).consumer name).paused = true := by
  have told := List.count_pos_iff.mpr commands.listed
  rw [Fleet.consumer_prompt, Consumer.paused_iterate_heed _ commands.reliable told]
  rfl

/-- A consumer does what the count calls for. -/
structure Heeded (governor : Governor) (name : String) : Prop where
  paused : governor.settings.high ≤ governor.inFlight →
    (governor.fleet.consumer name).paused = true
  running : governor.inFlight ≤ governor.settings.low →
    (governor.fleet.consumer name).paused = false

theorem heeded_iff {governor : Governor} {name : String} :
    governor.Heeded name ↔ ∀ command, governor.applies command = true →
      (governor.fleet.consumer name).paused = (command == .pause) := by
  constructor
  · intro heeded command applies
    cases command with
    | pause => exact heeded.paused (of_decide_eq_true applies)
    | resume => exact heeded.running (of_decide_eq_true applies)
  · intro obeys
    exact ⟨fun high => obeys .pause (decide_eq_true high),
      fun low => obeys .resume (decide_eq_true low)⟩

/-- A consumer that pulls while nothing is in flight does what the count calls for. -/
theorem Heeded.of_empty {governor : Governor} {name : String}
    (apart : governor.settings.low < governor.settings.high) (empty : governor.inFlight = 0)
    (pulling : (governor.fleet.consumer name).paused = false) : governor.Heeded name := by
  refine ⟨fun high => ?_, fun _ => pulling⟩
  rw [empty] at high
  exact absurd (UInt64.lt_of_lt_of_le apart high) (by simp)

/-! ## What happens to a consumer in between -/

/-- The count grew.  If it is at the high watermark now the consumer was paused, and if it is still
at the low one the consumer was left running. -/
structure Overtaken (name : String) (before after : Governor) : Prop where
  settings : after.settings = before.settings
  more : before.inFlight ≤ after.inFlight
  paused : before.settings.high ≤ after.inFlight →
    (before.settings.high ≤ before.inFlight → (before.fleet.consumer name).paused = true) →
      (after.fleet.consumer name).paused = true
  running : after.inFlight ≤ before.settings.low →
    (before.fleet.consumer name).paused = false → (after.fleet.consumer name).paused = false

theorem Overtaken.refl (name : String) (governor : Governor) : Overtaken name governor governor :=
  ⟨rfl, UInt64.le_refl _, fun high paused => paused high, fun _ running => running⟩

theorem Overtaken.trans {name : String} {before middle after : Governor}
    (first : Overtaken name before middle) (second : Overtaken name middle after) :
    Overtaken name before after where
  settings := second.settings.trans first.settings
  more := UInt64.le_trans first.more second.more
  paused := by
    intro high before
    have between := second.paused
    rw [first.settings] at between
    exact between high fun reached => first.paused reached before
  running := by
    intro low before
    have between := second.running
    rw [first.settings] at between
    exact between low (first.running (UInt64.le_trans second.more low) before)

section Between

variable {governor : Governor} {name : String}
  (apart : governor.settings.low < governor.settings.high) (commands : governor.Commands name)
include apart

/-- A consumer that is resumed at a count that calls for it is overtaken by nothing. -/
theorem overtaken_tell (low : governor.inFlight ≤ governor.settings.low) (told : String) :
    Overtaken name governor (governor.tell .resume told).1 where
  settings := rfl
  more := UInt64.le_refl _
  paused high := absurd (UInt64.le_trans high low) (UInt64.not_le.mpr apart)
  running := by
    intro _ running
    rw [consumer_tell]
    split
    · rename_i same
      subst same
      cases failing : (governor.fleet.consumer told).failing <;>
        simp [Consumer.obey, Consumer.count, failing, running]
    · exact running

include commands

/-- An admission pauses every consumer if it takes the count to the high watermark, and none if
not. -/
theorem overtaken_admitted (inner : Signal → Governor → Governor × List Event) {count : UInt64}
    (room : governor.settings.enabled = true → governor.Room (.admitted count)) :
    Overtaken name governor (raiseWith inner (.admitted count) governor).1 := by
  cases enabled : governor.settings.enabled with
  | false =>
      have still : raiseWith inner (.admitted count) governor = (governor, []) := by
        simp [raiseWith, enabled]
      rw [still]
      exact .refl name governor
  | true =>
      have moved : governor.countAfter (.admitted count) = governor.inFlight + count :=
        governor.countAfter_eq enabled _
      have more : governor.inFlight ≤ governor.inFlight + count := by
        rw [UInt64.le_iff_toNat_le, (room enabled).toNat_add]
        exact Nat.le_add_right ..
      rw [raiseWith_eq_of_quiet inner (quiet_admitted governor count), moved,
        given_admitted enabled]
      refine ⟨rfl, more, ?_, ?_⟩
      · intro high _
        rw [if_pos high]
        exact commands.paused_prompt
      · intro low running
        have below : ¬governor.settings.high ≤ governor.inFlight + count :=
          fun high => UInt64.not_lt.mpr (UInt64.le_trans high low) apart
        rw [if_neg below]
        exact running

end Between

/-- Whatever the count, an admission that fits overtakes the consumers. -/
def Overtakes (raise : Signal → Governor → Governor × List Event)
    (acts : Signal → Governor → List Act) : Prop :=
  ∀ governor name count, governor.settings.low < governor.settings.high →
    governor.Commands name → Along Fitting governor (acts (.admitted count) governor) →
      Overtaken name governor (raise (.admitted count) governor).1

/-- The acts of a signal fit only if the count has room for it and the acts of its pass fit. -/
theorem fitting_signalActs {acts : Signal → Governor → List Act} {signal : Signal}
    {governor : Governor} (fits : Along Fitting governor (signalActs acts signal governor)) :
    (governor.settings.enabled = true → governor.Room signal) ∧
      ∀ command, governor.given signal = some command →
        Along Fitting { governor with inFlight := governor.countAfter signal }
          (passActs acts command (governor.fleet.registry.handles governor.topic)
            { governor with inFlight := governor.countAfter signal }) := by
  rw [signalActs_eq] at fits
  cases enabled : governor.settings.enabled with
  | false => exact ⟨by simp, fun command told => by simp [given, enabled] at told⟩
  | true =>
      have frame : governor.perform (.count signal) = _ := count_of_enabled enabled signal
      rw [enabled, if_pos rfl] at fits
      obtain ⟨room, rest⟩ := fits
      refine ⟨fun _ => room, fun command told => ?_⟩
      rw [frame, told] at rest
      exact rest

theorem overtakes_raiseNested (depth : Nat) :
    Overtakes (raiseNested depth) (actsNested depth) := by
  intro governor name count apart commands fits
  cases depth with
  | zero => exact overtaken_admitted apart commands _ (fitting_signalActs fits).1
  | succ depth => exact overtaken_admitted apart commands _ (fitting_signalActs fits).1

section Resume

variable {raise : Signal → Governor → Governor × List Event}
  {acts : Signal → Governor → List Act} (replays : Replays raise acts)
  (overtakes : Overtakes raise acts) {governor : Governor} {name : String}
  (commands : governor.Commands name) (apart : governor.settings.low < governor.settings.high)
include replays overtakes commands apart

theorem overtaken_raiseAll {signals : List Signal}
    (admissions : ∀ signal ∈ signals, ∃ count, signal = .admitted count)
    (fits : Along Fitting governor (actsAll acts signals governor)) :
    Overtaken name governor (raiseAll raise signals governor).1 := by
  induction signals generalizing governor with
  | nil => exact .refl name governor
  | cons signal rest ih =>
      obtain ⟨⟨count, rfl⟩, others⟩ := List.forall_mem_cons.mp admissions
      obtain ⟨now, later⟩ := along_append.mp fits
      have first := overtakes governor name count apart commands now
      have kept := commands.performAll (acts (.admitted count) governor)
      have still := (governor.kept_performAll (acts (.admitted count) governor)).settings
      rw [replays] at kept still later
      exact first.trans (ih kept (by rwa [still]) others later)

/-- What a resumed consumer admits overtakes the consumers, and leaves the rest as it was. -/
theorem overtaken_turn (admitting : governor.Admitting) {told : String}
    (listed : told ∈ governor.fleet.registry.handles governor.topic)
    (fits : Along Fitting (governor.tell .resume told).1
      (actsAll acts ((governor.fleet.consumer told).raised .resume)
        (governor.tell .resume told).1)) :
    let after := (raiseAll raise ((governor.fleet.consumer told).raised .resume)
      (governor.tell .resume told).1).1
    Overtaken name (governor.tell .resume told).1 after ∧ after.Commands name ∧
      Kept governor after := by
  have admissions : ∀ signal ∈ (governor.fleet.consumer told).raised .resume,
      ∃ count, signal = .admitted count := by
    intro signal raised
    rw [Consumer.raised] at raised
    split at raised
    · simp at raised
    · exact admitting told listed signal raised
  have still : (governor.tell .resume told).1.Commands name :=
    commands.performAll [.tell .resume told]
  refine ⟨overtaken_raiseAll replays overtakes still apart admissions fits, ?_, ?_⟩
  · rw [← performAll_turn replays]
    exact commands.performAll _
  · rw [← performAll_turn replays]
    exact governor.kept_performAll _

/-- A pass that resumes leaves the consumers that it goes to running, unless it is overtaken. -/
theorem overtaken_pass (admitting : governor.Admitting) {names : List String}
    (among : ∀ other ∈ names, other ∈ governor.fleet.registry.handles governor.topic)
    (fits : Along Fitting governor (passActs acts .resume names governor)) :
    Overtaken name governor (pass raise .resume names governor).1 ∧
      (name ∈ names →
        (pass raise .resume names governor).1.inFlight ≤ governor.settings.low →
        ((pass raise .resume names governor).1.fleet.consumer name).paused = false) := by
  induction names generalizing governor with
  | nil => exact ⟨.refl name governor, by simp⟩
  | cons first rest ih =>
      obtain ⟨member, others⟩ := List.forall_mem_cons.mp among
      unfold passActs at fits
      unfold pass
      cases applies : governor.applies .resume with
      | false =>
          have above : ¬governor.inFlight ≤ governor.settings.low := of_decide_eq_false applies
          exact ⟨.refl name governor, fun _ low => absurd low above⟩
      | true =>
          have low : governor.inFlight ≤ governor.settings.low := of_decide_eq_true applies
          cases needs : (governor.fleet.consumer first).needs .resume with
          | false =>
              simp only [applies, needs, if_true, Bool.false_eq_true, if_false] at fits ⊢
              obtain ⟨overtaken, reached⟩ := ih commands apart admitting others fits
              refine ⟨overtaken, fun listed stays => ?_⟩
              rcases List.mem_cons.mp listed with rfl | behind
              · -- The consumer was running already.
                exact overtaken.running stays (Consumer.paused_of_not_needs needs)
              · exact reached behind stays
          | true =>
              simp only [applies, needs, if_true] at fits ⊢
              obtain ⟨⟨_, now⟩, later⟩ := along_append.mp fits
              have told : Overtaken name governor (governor.tell .resume first).1 :=
                overtaken_tell apart low first
              obtain ⟨turn, still, kept⟩ :=
                overtaken_turn replays overtakes commands apart admitting member now
              rw [performAll_turn replays] at later
              obtain ⟨overtaken, reached⟩ := ih still (by rwa [kept.settings])
                (kept.admitting admitting) (by rwa [kept.registry, kept.topic]) later
              rw [kept.settings] at reached
              refine ⟨(told.trans turn).trans overtaken, fun listed stays => ?_⟩
              rcases List.mem_cons.mp listed with rfl | behind
              · -- The command left it running, and what followed did not reach it.
                refine (turn.trans overtaken).running stays ?_
                rw [consumer_tell, if_pos rfl]
                exact Consumer.paused_obey commands.reliable .resume
              · exact reached behind stays

/-- A pass leaves a consumer doing what the count calls for, if it called for the command. -/
theorem heeded_pass (admitting : governor.Admitting) {command : Command}
    (applies : governor.applies command = true)
    (fits : Along Fitting governor
      (passActs acts command (governor.fleet.registry.handles governor.topic) governor)) :
    (pass raise command (governor.fleet.registry.handles governor.topic) governor).1.Heeded
      name := by
  cases command with
  | pause =>
      have high : governor.settings.high ≤ governor.inFlight := of_decide_eq_true applies
      rw [pass_eq fun _ _ => rfl, if_pos applies]
      refine ⟨fun _ => commands.paused_prompt, fun low => ?_⟩
      exact absurd (UInt64.le_trans high low) (UInt64.not_le.mpr apart)
  | resume =>
      have low : governor.inFlight ≤ governor.settings.low := of_decide_eq_true applies
      obtain ⟨overtaken, reached⟩ := overtaken_pass replays overtakes commands apart admitting
        (fun _ listed => listed) fits
      have settings := overtaken.settings
      refine ⟨fun high => ?_, fun drained => ?_⟩
      · rw [settings] at high
        refine overtaken.paused high fun early => ?_
        exact absurd (UInt64.le_trans early low) (UInt64.not_le.mpr apart)
      · rw [settings] at drained
        exact reached commands.listed drained

/-- A whole signal leaves a consumer doing what the count calls for. -/
theorem heeded_raiseWith (admitting : governor.Admitting) (heeded : governor.Heeded name)
    {signal : Signal} (fits : Along Fitting governor (signalActs acts signal governor)) :
    (raiseWith raise signal governor).1.Heeded name := by
  obtain ⟨room, rest⟩ := fitting_signalActs fits
  rw [raiseWith_eq]
  cases told : governor.given signal with
  | none =>
      cases enabled : governor.settings.enabled with
      | false =>
          rw [countAfter, enabled, if_neg Bool.false_ne_true]
          exact heeded
      | true =>
          obtain ⟨low, high⟩ := given_none (room enabled) told
          exact ⟨fun reached => heeded.paused (high reached),
            fun drained => heeded.running (low drained)⟩
  | some command =>
      have moved : ({ governor with inFlight := governor.countAfter signal } : Governor).Commands
          name := ⟨commands.listed, commands.reliable⟩
      exact heeded_pass replays overtakes moved apart admitting (given_eq_some told).2
        (rest command told)

end Resume

/-- A signal, its acts, and what consumers raise in the middle of it. -/
theorem exists_inner (governor : Governor) (signal : Signal) :
    ∃ raise acts, Replays raise acts ∧ Overtakes raise acts ∧
      governor.raise signal = raiseWith raise signal governor ∧
      governor.acts signal = signalActs acts signal governor := by
  unfold Governor.raise Governor.acts
  cases governor.fleet.consumers.size with
  | zero => exact ⟨_, _, fun _ _ => rfl, fun governor name _ _ _ _ => .refl name governor, rfl, rfl⟩
  | succ depth =>
      exact ⟨_, _, performAll_actsNested depth, overtakes_raiseNested depth, rfl, rfl⟩

/-! ## Runs -/

/-- No admission, of a consumer's either, takes the count beyond its greatest value. -/
def FitsWithin (governor : Governor) : List Step → Prop
  | [] => True
  | .signal signal :: rest =>
      Along Fitting governor (governor.acts signal) ∧
        FitsWithin (governor.after (.signal signal)) rest
  | .setFailing name failing :: rest =>
      FitsWithin (governor.after (.setFailing name failing)) rest

instance : ∀ (governor : Governor) (steps : List Step), Decidable (governor.FitsWithin steps)
  | _, [] => .isTrue trivial
  | governor, .signal signal :: rest =>
      let _ := instDecidableFitsWithin (governor.after (.signal signal)) rest
      inferInstanceAs
        (Decidable (Along Fitting governor (governor.acts signal) ∧ FitsWithin _ rest))
  | governor, .setFailing name failing :: rest =>
      instDecidableFitsWithin (governor.after (.setFailing name failing)) rest

theorem fitsWithin_append (governor : Governor) (front back : List Step) :
    governor.FitsWithin (front ++ back) ↔
      governor.FitsWithin front ∧ (governor.play front).FitsWithin back := by
  induction front generalizing governor with
  | nil => simp [FitsWithin, play]
  | cons step front ih =>
      cases step with
      | signal signal =>
          have rest := ih (governor.after (.signal signal))
          simp only [List.cons_append, FitsWithin, rest, and_assoc]
          rfl
      | setFailing name failing => exact ih _

theorem Commands.setFailing {governor : Governor} {name other : String} {failing : Bool}
    (commands : governor.Commands name) (steady : other = name → failing = false) :
    (governor.after (.setFailing other failing)).Commands name where
  listed := commands.listed
  reliable := by
    have changed := consumer_setFailing governor.fleet other name failing
    simp only [after, changed]
    split
    · rename_i own
      exact steady own
    · exact commands.reliable

theorem Heeded.setFailing {governor : Governor} {name other : String} {failing : Bool}
    (heeded : governor.Heeded name) :
    (governor.after (.setFailing other failing)).Heeded name := by
  have same : ((governor.after (.setFailing other failing)).fleet.consumer name).paused =
      (governor.fleet.consumer name).paused := by
    have changed := consumer_setFailing governor.fleet other name failing
    simp only [after, changed]
    split
    · rename_i own
      rw [own]
    · rfl
  exact ⟨fun high => same.trans (heeded.paused high), fun low => same.trans (heeded.running low)⟩

theorem heeded_play {governor : Governor} {name : String} {steps : List Step}
    (apart : governor.settings.low < governor.settings.high) (empty : governor.inFlight = 0)
    (admitting : governor.Admitting) (fits : governor.FitsWithin steps)
    (listed : name ∈ governor.fleet.registry.handles governor.topic)
    (pulling : (governor.fleet.consumer name).paused = false)
    (reliable : (governor.fleet.consumer name).failing = false)
    (steady : .setFailing name true ∉ steps) :
    Kept governor (governor.play steps) ∧ (governor.play steps).Commands name ∧
      (governor.play steps).Heeded name := by
  induction steps using List.reverseRecOn with
  | nil => exact ⟨.refl governor, ⟨listed, reliable⟩, .of_empty apart empty pulling⟩
  | append_singleton steps step ih =>
      obtain ⟨before, last⟩ := (fitsWithin_append ..).mp fits
      obtain ⟨kept, commands, heeded⟩ :=
        ih before fun early => steady (List.mem_append_left _ early)
      rw [play_concat]
      cases step with
      | signal signal =>
          obtain ⟨raise, acts, replays, overtakes, raised, acted⟩ :=
            (governor.play steps).exists_inner signal
          have onward := (governor.play steps).kept_performAll ((governor.play steps).acts signal)
          have still := commands.performAll ((governor.play steps).acts signal)
          have fits := last.1
          rw [performAll_acts] at onward still
          rw [acted] at fits
          refine ⟨kept.trans onward, still, ?_⟩
          rw [after, raised]
          exact heeded_raiseWith replays overtakes commands (by rwa [kept.settings])
            (kept.admitting admitting) heeded fits
      | setFailing other failing =>
          refine ⟨kept.trans (kept_setFailing ..), commands.setFailing ?_, heeded.setFailing⟩
          rintro rfl
          cases failing with
          | false => rfl
          | true => simp at steady

/-- A resume that is overtaken by admissions undoes no pause.  Whatever the consumers admit in the
middle of it, after every step a consumer that never fails is paused if the count is at or above the
high watermark, and running if it is at or below the low one.  Every command on the way is given to
a consumer that needs it, at a count that calls for it. -/
theorem overtaken_resume_undoes_no_pause {governor : Governor} {steps : List Step}
    (valid : governor.settings.validate = .ok ()) (empty : governor.inFlight = 0)
    (admitting : governor.Admitting) (fits : governor.FitsWithin steps) :
    (∀ name ∈ governor.fleet.registry.handles governor.topic,
      (governor.fleet.consumer name).paused = false →
      (governor.fleet.consumer name).failing = false → .setFailing name true ∉ steps →
        (governor.play steps).Heeded name) ∧
    ∀ front signal back, steps = front ++ .signal signal :: back →
      (governor.play front).performAll ((governor.play front).acts signal) =
          ((governor.play front).raise signal).1 ∧
        Along Called (governor.play front) ((governor.play front).acts signal) := by
  constructor
  · intro name listed pulling reliable steady
    exact (heeded_play (FlowSettings.low_lt_high valid) empty admitting fits listed pulling
      reliable steady).2.2
  · intro front signal _ _
    exact ⟨performAll_acts signal (governor.play front), called_acts signal (governor.play front)⟩

/-- Two consumers, the first of which admits a chunk each time that it was resumed. -/
def eager : Governor :=
  .create .standard "chunks"
    (((Fleet.empty.register "chunks" "a").register "chunks" "b").setAfterResume "a"
      [.admitted 15])

/-- The count reaches the high watermark and falls to just above the low one. -/
def nearlyDrained : List Step := .signal (.admitted 20) :: List.replicate 9 (.signal .completed)

theorem eager_undoes_no_pause :
    (eager.play (nearlyDrained ++ [.signal .completed])).inFlight = 25 ∧
      (∀ name ∈ eager.fleet.registry.handles eager.topic,
        (eager.play (nearlyDrained ++ [.signal .completed])).Heeded name) ∧
      (eager.play nearlyDrained).acts .completed =
        [.count .completed, .tell .resume "a", .count (.admitted 15), .tell .pause "a"] ∧
      Along Called (eager.play nearlyDrained) ((eager.play nearlyDrained).acts .completed) := by
  have admitting : eager.Admitting := by
    intro name listed signal raised
    have names : eager.fleet.registry.handles eager.topic = ["a", "b"] := by decide +kernel
    have hooks : (eager.fleet.consumer "a").afterResume = [.admitted 15] ∧
        (eager.fleet.consumer "b").afterResume = [] := by decide +kernel
    rw [names] at listed
    rcases List.mem_cons.mp listed with rfl | other
    · rw [hooks.1] at raised
      exact ⟨15, List.mem_singleton.mp raised⟩
    · rw [List.mem_singleton.mp other, hooks.2] at raised
      simp at raised
  have fits : eager.FitsWithin (nearlyDrained ++ [.signal .completed]) := by decide +kernel
  have pulling : ∀ name ∈ eager.fleet.registry.handles eager.topic,
      (eager.fleet.consumer name).paused = false ∧
        (eager.fleet.consumer name).failing = false := by decide +kernel
  obtain ⟨heeded, called⟩ := overtaken_resume_undoes_no_pause rfl rfl admitting fits
  refine ⟨by decide +kernel, ?_, by decide +kernel, (called nearlyDrained .completed [] rfl).2⟩
  intro name listed
  exact heeded name listed (pulling name listed).1 (pulling name listed).2
    (by simp [nearlyDrained])

end Governor
end Intake
