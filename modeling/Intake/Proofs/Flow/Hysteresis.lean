import Intake.Proofs.Flow.Calm
import Mathlib.Data.List.Induction

/-!
# Hysteresis

Between the watermarks a governor keeps what it did last.  So its consumers follow a trigger with two
thresholds: they are paused exactly if the count reached the high watermark after it was last at or
below the low one.  This file proves it for every sequence of signals, however far a single one moves
the count and whichever other consumers fail.
-/

namespace Intake
namespace Governor

/-! ## Runs of a governor -/

/-- What can happen around a governor. -/
inductive Step where
  /-- Something is signalled. -/
  | signal (signal : Signal)
  /-- The commands to a consumer begin or cease to fail. -/
  | setFailing (name : String) (failing : Bool)

/-- The governor after a step. -/
def after (governor : Governor) : Step → Governor
  | .signal signal => (governor.raise signal).1
  | .setFailing name failing => { governor with fleet := governor.fleet.setFailing name failing }

/-- The governor after steps. -/
def play (governor : Governor) (steps : List Step) : Governor := steps.foldl after governor

/-- The count after each signal among steps. -/
def counts (governor : Governor) : List Step → List UInt64
  | [] => []
  | .signal signal :: rest =>
      (governor.after (.signal signal)).inFlight :: counts (governor.after (.signal signal)) rest
  | .setFailing name failing :: rest => counts (governor.after (.setFailing name failing)) rest

/-- No admission takes the count beyond its greatest value. -/
def Fits (governor : Governor) : List Step → Prop
  | [] => True
  | .signal signal :: rest =>
      governor.Room signal ∧ Fits (governor.after (.signal signal)) rest
  | .setFailing name failing :: rest => Fits (governor.after (.setFailing name failing)) rest

theorem play_concat (governor : Governor) (steps : List Step) (step : Step) :
    governor.play (steps ++ [step]) = (governor.play steps).after step := by
  rw [play, List.foldl_append]
  rfl

theorem counts_append (governor : Governor) (front back : List Step) :
    governor.counts (front ++ back) =
      governor.counts front ++ (governor.play front).counts back := by
  induction front generalizing governor with
  | nil => rfl
  | cons step front ih =>
      cases step with
      | signal signal => exact congrArg (_ :: ·) (ih _)
      | setFailing name failing => exact ih _

theorem fits_append (governor : Governor) (front back : List Step) :
    governor.Fits (front ++ back) ↔ governor.Fits front ∧ (governor.play front).Fits back := by
  induction front generalizing governor with
  | nil => simp [Fits, play]
  | cons step front ih =>
      cases step with
      | signal signal =>
          have rest := ih (governor.after (.signal signal))
          simp only [List.cons_append, Fits, rest, and_assoc]
          rfl
      | setFailing name failing => exact ih _

theorem consumer_setFailing (fleet : Fleet) (name other : String) (failing : Bool) :
    (fleet.setFailing name failing).consumer other =
      if name = other then { fleet.consumer name with failing } else fleet.consumer other :=
  fleet.consumer_set name other _

theorem kept_setFailing (governor : Governor) (name : String) (failing : Bool) :
    Kept governor (governor.after (.setFailing name failing)) := by
  refine ⟨rfl, rfl, rfl, fun other => ?_⟩
  have changed := consumer_setFailing governor.fleet name other failing
  simp only [after, changed]
  split
  · rename_i same
    rw [same]
  · rfl

theorem kept_after {governor : Governor} (calm : governor.Calm) (step : Step) :
    Kept governor (governor.after step) := by
  cases step with
  | signal signal => exact kept_raise calm signal
  | setFailing name failing => exact governor.kept_setFailing name failing

theorem kept_play {governor : Governor} (calm : governor.Calm) (steps : List Step) :
    Kept governor (governor.play steps) := by
  induction steps using List.reverseRecOn with
  | nil => exact .refl governor
  | append_singleton steps step ih =>
      rw [play_concat]
      exact ih.trans (kept_after (ih.calm calm) step)

/-! ## The trigger -/

/-- The count reached the high watermark after it was last at or below the low one. -/
def Held (settings : FlowSettings) (counts : List UInt64) : Prop :=
  ∃ earlier count later, counts = earlier ++ count :: later ∧ settings.high ≤ count ∧
    ∀ next ∈ later, settings.low < next

theorem not_held_nil (settings : FlowSettings) : ¬Held settings [] := by
  rintro ⟨earlier, count, later, impossible, _⟩
  simp at impossible

theorem held_concat {settings : FlowSettings} {counts : List UInt64} {count : UInt64} :
    Held settings (counts ++ [count]) ↔
      settings.high ≤ count ∨ (Held settings counts ∧ settings.low < count) := by
  constructor
  · rintro ⟨earlier, reached, later, split, high, above⟩
    induction later using List.reverseRecOn with
    | nil =>
        obtain ⟨rfl, same⟩ := List.append_inj' split rfl
        obtain rfl : count = reached := by simpa using same
        exact .inl high
    | append_singleton later last _ =>
        rw [← List.cons_append, ← List.append_assoc] at split
        obtain ⟨rfl, same⟩ := List.append_inj' split rfl
        obtain rfl : count = last := by simpa using same
        refine .inr ⟨⟨earlier, reached, later, rfl, high, ?_⟩, above count (by simp)⟩
        exact fun next member => above next (List.mem_append_left _ member)
  · rintro (high | ⟨⟨earlier, reached, later, rfl, high, above⟩, low⟩)
    · exact ⟨counts, count, [], rfl, high, by simp⟩
    · refine ⟨earlier, reached, later ++ [count], by simp, high, ?_⟩
      intro next member
      rcases List.mem_append.mp member with among | last
      · exact above next among
      · rwa [List.mem_singleton.mp last]

/-- The count agrees with the trigger outside the watermarks. -/
structure Agrees (settings : FlowSettings) (counts : List UInt64) (inFlight : UInt64) : Prop where
  above : Held settings counts → settings.low < inFlight
  reached : settings.high ≤ inFlight → Held settings counts

section Trigger

variable {settings : FlowSettings} (valid : settings.low < settings.high)
include valid

theorem agrees_start : Agrees settings [] 0 where
  above held := absurd held (not_held_nil settings)
  reached high := by
    have none := UInt64.lt_of_lt_of_le valid high
    simp at none

theorem agrees_concat (counts : List UInt64) (count : UInt64) :
    Agrees settings (counts ++ [count]) count where
  above held := by
    rcases held_concat.mp held with high | ⟨_, low⟩
    · exact UInt64.lt_of_lt_of_le valid high
    · exact low
  reached high := held_concat.mpr (.inl high)

theorem agrees_play {governor : Governor} (empty : governor.inFlight = 0) (steps : List Step) :
    Agrees settings (governor.counts steps) (governor.play steps).inFlight := by
  induction steps using List.reverseRecOn with
  | nil =>
      rw [show (governor.play []).inFlight = 0 from empty]
      exact agrees_start valid
  | append_singleton steps step ih =>
      rw [counts_append, play_concat]
      cases step with
      | signal signal => exact agrees_concat valid ..
      | setFailing name failing =>
          rw [show (governor.play steps).counts [.setFailing name failing] = [] from rfl,
            List.append_nil]
          exact ih

/-- A signal leaves a consumer that does not fail as the trigger has it. -/
theorem paused_raise {governor : Governor} (same : governor.settings = settings)
    (calm : governor.Calm) {counts : List UInt64}
    (agrees : Agrees settings counts governor.inFlight) {name : String}
    (member : name ∈ governor.fleet.registry.handles governor.topic)
    (reliable : (governor.fleet.consumer name).failing = false)
    (follows : (governor.fleet.consumer name).paused = true ↔ Held settings counts)
    {signal : Signal} (room : governor.Room signal) :
    ((governor.raise signal).1.fleet.consumer name).paused = true ↔
      Held settings (counts ++ [(governor.raise signal).1.inFlight]) := by
  subst same
  have told := List.count_pos_iff.mpr member
  have moved : (governor.raise signal).1.inFlight = governor.countAfter signal := by
    rw [raise_eq (calm.quiet _)]
  have now := agrees_concat valid counts (governor.countAfter signal)
  rw [consumer_raise (calm.quiet _), moved]
  -- Without a command the count has passed neither watermark, and the trigger stays as it was.
  cases given : governor.given signal with
  | none =>
      obtain ⟨notDrained, notReached⟩ := given_none room given
      dsimp only
      rw [follows, held_concat]
      constructor
      · intro held
        refine .inr ⟨held, ?_⟩
        by_contra drained
        have low := notDrained (UInt64.not_lt.mp drained)
        exact UInt64.not_lt.mpr low (agrees.above held)
      · rintro (high | ⟨held, _⟩)
        · exact agrees.reached (notReached high)
        · exact held
  | some command =>
      dsimp only
      rw [Consumer.paused_iterate_heed _ reliable told]
      cases command with
      | pause =>
          have held := now.reached (given_pause given)
          simpa using held
      | resume =>
          have released : ¬Held governor.settings (counts ++ [governor.countAfter signal]) :=
            fun held => UInt64.not_lt.mpr (given_resume given) (now.above held)
          simpa using released

/-- A consumer that never fails follows the trigger. -/
theorem paused_play {governor : Governor} (same : governor.settings = settings)
    (empty : governor.inFlight = 0) (calm : governor.Calm) {steps : List Step}
    (fits : governor.Fits steps) {name : String}
    (member : name ∈ governor.fleet.registry.handles governor.topic)
    (pulling : (governor.fleet.consumer name).paused = false)
    (reliable : (governor.fleet.consumer name).failing = false)
    (steady : .setFailing name true ∉ steps) :
    ((governor.play steps).fleet.consumer name).failing = false ∧
      (((governor.play steps).fleet.consumer name).paused = true ↔
        Held settings (governor.counts steps)) := by
  induction steps using List.reverseRecOn with
  | nil => exact ⟨reliable, by simp [play, counts, pulling, not_held_nil]⟩
  | append_singleton steps step ih =>
      obtain ⟨before, last⟩ := (fits_append ..).mp fits
      obtain ⟨working, follows⟩ := ih before fun early => steady (List.mem_append_left _ early)
      have kept := kept_play calm steps
      rw [play_concat, counts_append]
      cases step with
      | signal signal =>
          have listed : name ∈ (governor.play steps).fleet.registry.handles
              (governor.play steps).topic := by
            rwa [kept.registry, kept.topic]
          refine ⟨?_, paused_raise valid (kept.settings.trans same) (kept.calm calm)
            (agrees_play valid empty steps) listed working follows last.1⟩
          have told := consumer_raise ((kept.calm calm).quiet signal) name
          simp only [after, told]
          split
          · exact working
          · rw [Consumer.failing_iterate_heed, working]
      | setFailing other failing =>
          have changed := consumer_setFailing (governor.play steps).fleet other name failing
          rw [show (governor.play steps).counts [.setFailing other failing] = [] from rfl,
            List.append_nil]
          simp only [after, changed]
          split
          · rename_i own
            subst own
            have mended : failing = false := by
              cases failing with
              | false => rfl
              | true => simp at steady
            exact ⟨mended, follows⟩
          · exact ⟨working, follows⟩

end Trigger

/-! ## Consumers that fail, and those of other topics -/

/-- Whether a step makes the commands to a consumer fail or succeed. -/
def Step.isAbout (name : String) : Step → Bool
  | .signal _ => false
  | .setFailing other _ => other == name

/-- Governors that differ in one consumer at most. -/
structure Alike (exempt : String) (left right : Governor) : Prop where
  settings : left.settings = right.settings
  topic : left.topic = right.topic
  inFlight : left.inFlight = right.inFlight
  registry : left.fleet.registry = right.fleet.registry
  others : ∀ name, name ≠ exempt → left.fleet.consumer name = right.fleet.consumer name

theorem Alike.refl (exempt : String) (governor : Governor) : Alike exempt governor governor :=
  ⟨rfl, rfl, rfl, rfl, fun _ _ => rfl⟩

/-- A step that both governors take, or one about the exempt consumer, keeps them alike. -/
theorem Alike.after {exempt : String} {left right : Governor} (alike : Alike exempt left right)
    (calm : left.Calm ∧ right.Calm) (step : Step) :
    Alike exempt (left.after step)
      (if step.isAbout exempt then right else right.after step) := by
  cases step with
  | signal signal =>
      have moved := countAfter_congr alike.settings alike.inFlight signal
      have given := given_congr alike.settings alike.inFlight signal
      have first := kept_raise calm.1 signal
      have second := kept_raise calm.2 signal
      refine ⟨?_, ?_, ?_, ?_, ?_⟩
      · exact first.settings.trans (alike.settings.trans second.settings.symm)
      · exact first.topic.trans (alike.topic.trans second.topic.symm)
      · change (left.raise signal).1.inFlight = (right.raise signal).1.inFlight
        rw [raise_eq (calm.1.quiet _), raise_eq (calm.2.quiet _), moved]
      · exact first.registry.trans (alike.registry.trans second.registry.symm)
      · intro name other
        change (left.raise signal).1.fleet.consumer name =
          (right.raise signal).1.fleet.consumer name
        rw [consumer_raise (calm.1.quiet _), consumer_raise (calm.2.quiet _), given,
          alike.registry, alike.topic, alike.others name other]
  | setFailing name failing =>
      by_cases same : name = exempt
      · subst same
        simp only [Step.isAbout, beq_self_eq_true, if_true]
        refine ⟨alike.settings, alike.topic, alike.inFlight, alike.registry, ?_⟩
        intro other different
        rw [← alike.others other different]
        exact (consumer_setFailing ..).trans (if_neg (Ne.symm different))
      · simp only [Step.isAbout, beq_iff_eq, same, if_false]
        refine ⟨alike.settings, alike.topic, alike.inFlight, alike.registry, ?_⟩
        intro other different
        have changes := consumer_setFailing left.fleet name other failing
        have follows := consumer_setFailing right.fleet name other failing
        simp only [Governor.after, changes, follows, alike.others other different,
          alike.others name same]

/-- Whether a consumer fails does not matter to the others. -/
theorem alike_play {governor : Governor} (calm : governor.Calm) (exempt : String)
    (steps : List Step) :
    Alike exempt (governor.play steps)
      (governor.play (steps.filter fun step => !step.isAbout exempt)) := by
  induction steps using List.reverseRecOn with
  | nil => exact .refl exempt governor
  | append_singleton steps step ih =>
      have both := ih.after ⟨(kept_play calm _).calm calm, (kept_play calm _).calm calm⟩ step
      rw [play_concat, List.filter_append]
      cases about : step.isAbout exempt with
      | true => simpa [about] using both
      | false =>
          simp only [List.filter_cons, about, Bool.not_false, if_true, List.filter_nil, play_concat]
          simpa [about] using both

/-- A consumer that is not registered for the topic is told nothing. -/
theorem untold_play {governor : Governor} (calm : governor.Calm) {name : String}
    (foreign : name ∉ governor.fleet.registry.handles governor.topic) (steps : List Step) :
    ∃ failing, (governor.play steps).fleet.consumer name =
      { governor.fleet.consumer name with failing } := by
  induction steps using List.reverseRecOn with
  | nil => exact ⟨_, rfl⟩
  | append_singleton steps step ih =>
      obtain ⟨failing, same⟩ := ih
      have kept := kept_play calm steps
      rw [play_concat]
      cases step with
      | signal signal =>
          have told := consumer_raise ((kept.calm calm).quiet signal) name
          rw [kept.registry, kept.topic, List.count_eq_zero.mpr foreign] at told
          refine ⟨failing, ?_⟩
          simp only [after, told]
          split <;> exact same
      | setFailing other fails =>
          have changed := consumer_setFailing (governor.play steps).fleet other name fails
          simp only [after, changed]
          split
          · rename_i own
            exact ⟨fails, by rw [own, same]⟩
          · exact ⟨failing, same⟩

/-- After every sequence of signals a consumer of the topic that never fails is paused exactly if the
count reached the high watermark after it was last at or below the low one.  Whether a consumer fails
does not matter to the others, and consumers that are not registered for the topic are told
nothing. -/
theorem hysteresis_is_exact {governor : Governor} {steps : List Step}
    (valid : governor.settings.validate = .ok ()) (empty : governor.inFlight = 0)
    (calm : governor.Calm) (fits : governor.Fits steps) :
    (∀ name ∈ governor.fleet.registry.handles governor.topic,
      (governor.fleet.consumer name).paused = false →
      (governor.fleet.consumer name).failing = false → .setFailing name true ∉ steps →
        (((governor.play steps).fleet.consumer name).paused = true ↔
          Held governor.settings (governor.counts steps))) ∧
    (∀ exempt, Alike exempt (governor.play steps)
      (governor.play (steps.filter fun step => !step.isAbout exempt))) ∧
    (∀ name, name ∉ governor.fleet.registry.handles governor.topic →
      ∃ failing, (governor.play steps).fleet.consumer name =
        { governor.fleet.consumer name with failing }) := by
  refine ⟨?_, fun exempt => alike_play calm exempt steps,
    fun name foreign => untold_play calm foreign steps⟩
  intro name member pulling reliable steady
  exact (paused_play (FlowSettings.low_lt_high valid) rfl empty calm fits member pulling reliable steady).2

/-- Two consumers of the governed topic and one of another topic. -/
def threeConsumers : Governor :=
  .create .standard "chunks"
    (((Fleet.empty.register "chunks" "a").register "chunks" "b").register "records" "c")

/-- One consumer fails while the count jumps over both watermarks. -/
def jump : List Step :=
  [.setFailing "b" true, .signal (.admitted 30), .signal .completed, .setFailing "b" false,
    .signal (.duplicate 12)]

theorem jump_holds_consumer :
    threeConsumers.counts jump = [30, 29, 17] ∧
      ((threeConsumers.play jump).fleet.consumer "a").paused = true ∧
      Alike "b" (threeConsumers.play jump) (threeConsumers.play
        [.signal (.admitted 30), .signal .completed, .signal (.duplicate 12)]) ∧
      ∃ failing, (threeConsumers.play jump).fleet.consumer "c" = { Consumer.fresh with failing } := by
  have counts : threeConsumers.counts jump = [30, 29, 17] := by decide +kernel
  have calm : threeConsumers.Calm := by
    unfold Calm
    decide +kernel
  have fits : threeConsumers.Fits jump :=
    ⟨by unfold Room; decide +kernel, trivial, trivial, trivial⟩
  obtain ⟨follows, exempt, untold⟩ := hysteresis_is_exact rfl rfl calm fits
  have held : Held threeConsumers.settings (threeConsumers.counts jump) := by
    rw [counts]
    refine ⟨[], 30, [29, 17], rfl, by decide, ?_⟩
    exact List.forall_mem_cons.mpr ⟨by decide, List.forall_mem_singleton.mpr (by decide)⟩
  have pulling : (threeConsumers.fleet.consumer "a").paused = false ∧
      (threeConsumers.fleet.consumer "a").failing = false := by decide +kernel
  have listed : "a" ∈ threeConsumers.fleet.registry.handles threeConsumers.topic := by
    decide +kernel
  exact ⟨counts, (follows "a" listed pulling.1 pulling.2 (by simp [jump])).mpr held, exempt "b",
    untold "c" (by decide +kernel)⟩

end Governor
end Intake
