import Intake.Flow.Governor
import Mathlib.Data.List.Count
import Mathlib.Logic.Function.Iterate

/-!
# Signals among calm consumers

A consumer is calm when it raises no signals of its own.  Where no consumer of a topic raises
anything on a command, because they are calm or because it is a pause, a pass gives the command to
each of them that needs it and leaves the count alone.  A whole signal is then one move of the count
with at most one command, and `Governor.raise_eq` says which.
-/

namespace Intake

namespace Consumer

/-- The consumer after a command that is given only if it is needed. -/
def heed (command : Command) (consumer : Consumer) : Consumer :=
  if consumer.needs command then consumer.obey command else consumer

@[simp]
theorem needs_pause (consumer : Consumer) : consumer.needs .pause = !consumer.paused := by
  cases paused : consumer.paused <;> simp [needs, demand, paused]

@[simp]
theorem needs_resume (consumer : Consumer) : consumer.needs .resume = consumer.paused := by
  cases paused : consumer.paused <;> simp [needs, demand, paused]

@[simp]
theorem afterResume_obey (consumer : Consumer) (command : Command) :
    (consumer.obey command).afterResume = consumer.afterResume := by
  cases command <;> cases failing : consumer.failing <;> simp [obey, count, failing]

@[simp]
theorem failing_obey (consumer : Consumer) (command : Command) :
    (consumer.obey command).failing = consumer.failing := by
  cases command <;> cases failing : consumer.failing <;> simp [obey, count, failing]

@[simp]
theorem afterResume_heed (consumer : Consumer) (command : Command) :
    (consumer.heed command).afterResume = consumer.afterResume := by
  unfold heed
  split <;> simp

@[simp]
theorem failing_heed (consumer : Consumer) (command : Command) :
    (consumer.heed command).failing = consumer.failing := by
  unfold heed
  split <;> simp

/-- A consumer that does not fail does what it is told. -/
theorem paused_obey {consumer : Consumer} (reliable : consumer.failing = false)
    (command : Command) : (consumer.obey command).paused = (command == .pause) := by
  simp [obey, reliable]

/-- A consumer that does not need a command does what it says. -/
theorem paused_of_not_needs {consumer : Consumer} {command : Command}
    (content : consumer.needs command = false) : consumer.paused = (command == .pause) := by
  cases command with
  | pause => simpa using content
  | resume => exact consumer.needs_resume.symm.trans content

theorem paused_heed {consumer : Consumer} (reliable : consumer.failing = false)
    (command : Command) : (consumer.heed command).paused = (command == .pause) := by
  unfold heed
  split
  · exact paused_obey reliable command
  · rename_i content
    exact paused_of_not_needs (Bool.eq_false_iff.mpr content)

theorem raised_of_calm {consumer : Consumer} (calm : consumer.afterResume = [])
    (command : Command) : consumer.raised command = [] := by
  cases command <;> simp [raised, calm]

@[simp]
theorem raised_obey (consumer : Consumer) (told command : Command) :
    (consumer.obey told).raised command = consumer.raised command := by
  cases command with
  | pause => rfl
  | resume => rw [raised, raised, failing_obey, afterResume_obey]

section Iterate

variable {consumer : Consumer} {command : Command} (times : Nat)

@[simp]
theorem afterResume_iterate_heed :
    ((heed command)^[times] consumer).afterResume = consumer.afterResume := by
  induction times generalizing consumer with
  | zero => rfl
  | succ times ih => rw [Function.iterate_succ_apply, ih, afterResume_heed]

@[simp]
theorem failing_iterate_heed :
    ((heed command)^[times] consumer).failing = consumer.failing := by
  induction times generalizing consumer with
  | zero => rfl
  | succ times ih => rw [Function.iterate_succ_apply, ih, failing_heed]

theorem paused_iterate_heed (reliable : consumer.failing = false) (told : 0 < times) :
    ((heed command)^[times] consumer).paused = (command == .pause) := by
  cases times with
  | zero => simp at told
  | succ earlier =>
      rw [Function.iterate_succ_apply']
      exact paused_heed (by rw [failing_iterate_heed, reliable]) command

end Iterate

end Consumer

namespace Fleet

theorem consumer_set (fleet : Fleet) (name other : String) (consumer : Consumer) :
    (fleet.set name consumer).consumer other =
      if name = other then consumer else fleet.consumer other := by
  simp only [set, Fleet.consumer, KeyMap.get?_insert]
  split <;> rfl

theorem consumer_tell (fleet : Fleet) (command : Command) (name other : String) :
    (fleet.tell command name).2.consumer other =
      if name = other then (fleet.consumer name).obey command else fleet.consumer other :=
  fleet.consumer_set name other _

/-- The consumers after a command went to those of a list that need it. -/
def prompt (fleet : Fleet) (command : Command) : List String → Fleet
  | [] => fleet
  | name :: rest =>
      if (fleet.consumer name).needs command then
        prompt (fleet.tell command name).2 command rest
      else
        prompt fleet command rest

/-- A consumer is told once for each time that it is listed. -/
theorem consumer_prompt (fleet : Fleet) (command : Command) (names : List String)
    (name : String) :
    (fleet.prompt command names).consumer name =
      (Consumer.heed command)^[names.count name] (fleet.consumer name) := by
  induction names generalizing fleet with
  | nil => rfl
  | cons first rest ih =>
      by_cases same : first = name
      · subst same
        rw [List.count_cons_self, Function.iterate_succ_apply, Consumer.heed, prompt]
        split
        · rw [ih, consumer_tell, if_pos rfl]
        · rw [ih]
      · rw [List.count_cons_of_ne same, prompt]
        split
        · rw [ih, consumer_tell, if_neg same]
        · rw [ih]

@[simp]
theorem registry_prompt (fleet : Fleet) (command : Command) (names : List String) :
    (fleet.prompt command names).registry = fleet.registry := by
  induction names generalizing fleet with
  | nil => rfl
  | cons first rest ih =>
      rw [prompt]
      split <;> rw [ih]
      rfl

end Fleet

theorem FlowSettings.low_lt_high {settings : FlowSettings} (valid : settings.validate = .ok ()) :
    settings.low < settings.high := by
  by_contra inverted
  have refused : settings.validate = .error (.invalidWatermarks settings.high settings.low) :=
    if_pos (UInt64.not_lt.mp inverted)
  simp [valid] at refused

namespace Governor

/-- The consumers that the governor tells raise no signals of their own. -/
def Calm (governor : Governor) : Prop :=
  ∀ name ∈ governor.fleet.registry.handles governor.topic,
    (governor.fleet.consumer name).afterResume = []

/-- The consumers raise nothing on what a signal calls for. -/
def Quiet (governor : Governor) (signal : Signal) : Prop :=
  ∀ command, (governor.count signal).2.2 = some command →
    ∀ name ∈ governor.fleet.registry.handles governor.topic,
      (governor.fleet.consumer name).raised command = []

theorem Calm.quiet {governor : Governor} (calm : governor.Calm) (signal : Signal) :
    governor.Quiet signal :=
  fun command _ name member => Consumer.raised_of_calm (calm name member) command

/-- A consumer that is paused raises nothing. -/
theorem quiet_admitted (governor : Governor) (count : UInt64) :
    governor.Quiet (.admitted count) := by
  intro command called name _
  obtain ⟨_, pause⟩ := Option.ite_none_right_eq_some.mp called
  obtain rfl := Option.some.inj pause
  rfl

/-! ## What is reported -/

/-- How a consumer took a command. -/
def Event.IsReply : Event → Prop
  | .obeyed _ | .refused _ _ => True
  | .counted _ | .shortfall _ => False

instance : DecidablePred Event.IsReply
  | .obeyed _ | .refused _ _ => .isTrue trivial
  | .counted _ | .shortfall _ => .isFalse id

/-- Only shortfalls are counted as such. -/
theorem count_notices (events : List Event) (cause : Shortfall) :
    (events.flatMap Event.notices).count (.counted (Event.shortfallSeries cause)) =
      events.count (.shortfall cause) := by
  have each : ∀ event : Event, event.notices.count (.counted (Event.shortfallSeries cause)) =
      if event == .shortfall cause then 1 else 0 := by
    intro event
    cases event with
    | counted => rfl
    | shortfall other => cases other <;> cases cause <;> decide
    | obeyed command => cases command <;> cases cause <;> decide
    | refused command =>
        cases command <;> cases cause <;>
          simp [Event.notices, Event.refusedSeries, Event.shortfallSeries]
  exact Notice.count_flatMap each events

/-! ## Passes -/

section Pass

variable {inner : Signal → Governor → Governor × List Event} {command : Command}
  {names : List String} {governor : Governor}

/-- Consumers that raise nothing on a command do not when one of them is told it. -/
theorem silent_tell (told : String)
    (silent : ∀ name ∈ names, (governor.fleet.consumer name).raised command = []) :
    ∀ name ∈ names,
      ((governor.tell command told).1.fleet.consumer name).raised command = [] := by
  intro name member
  have kept := silent name member
  change ((governor.fleet.tell command told).2.consumer name).raised command = []
  rw [Fleet.consumer_tell]
  split
  · rename_i same
    rw [Consumer.raised_obey, same, kept]
  · exact kept

/-- A pass does nothing when the count does not call for its command. -/
theorem pass_of_idle (idle : governor.applies command = false) :
    pass inner command names governor = (governor, []) := by
  cases names with
  | nil => rfl
  | cons first rest => simp [pass, idle]

/-- A pass among consumers that raise nothing moves only them. -/
theorem pass_eq (silent : ∀ name ∈ names, (governor.fleet.consumer name).raised command = []) :
    (pass inner command names governor).1 =
      if governor.applies command then
        { governor with fleet := governor.fleet.prompt command names }
      else governor := by
  induction names generalizing governor with
  | nil => simp [pass, Fleet.prompt]
  | cons first rest ih =>
      obtain ⟨nothing, others⟩ := List.forall_mem_cons.mp silent
      unfold pass
      cases applies : governor.applies command with
      | false => rfl
      | true =>
          cases needs : (governor.fleet.consumer first).needs command with
          | false => simp only [ih others, applies, needs, Fleet.prompt, if_true, Bool.false_eq_true,
              if_false]
          | true =>
              have still : (governor.tell command first).1.applies command = true := by
                cases command <;> exact applies
              have later := ih (silent_tell first others)
              simp only [nothing, raiseAll, Fleet.prompt, needs, if_true, later, still]
              rfl

/-- Consumers that raise nothing report only how they took the command. -/
theorem mem_pass (silent : ∀ name ∈ names, (governor.fleet.consumer name).raised command = [])
    {event : Event} (member : event ∈ (pass inner command names governor).2) :
    event.IsReply := by
  induction names generalizing governor with
  | nil => simp [pass] at member
  | cons first rest ih =>
      obtain ⟨nothing, others⟩ := List.forall_mem_cons.mp silent
      unfold pass at member
      split at member
      · dsimp only at member
        split at member
        · rw [nothing] at member
          rcases List.mem_cons.mp member with rfl | later
          · unfold tell
            dsimp only
            split <;> trivial
          · exact ih (silent_tell first others) later
        · exact ih others member
      · simp at member

end Pass

/-! ## Whole signals -/

/-- The count after a signal. -/
def countAfter (governor : Governor) (signal : Signal) : UInt64 :=
  if governor.settings.enabled then (governor.count signal).1.inFlight else governor.inFlight

/-- The command that the consumers are given on a signal. -/
def given (governor : Governor) (signal : Signal) : Option Command :=
  if governor.settings.enabled then
    (governor.count signal).2.2.filter
      { governor with inFlight := governor.countAfter signal }.applies
  else none

theorem count_eq (governor : Governor) (signal : Signal) :
    (governor.count signal).1 =
      { governor with inFlight := (governor.count signal).1.inFlight } := by
  cases signal with
  | admitted | duplicate => rfl
  | completed =>
      unfold count
      dsimp only
      split <;> rfl

/-- How the count moves, and what it calls for, does not depend on the consumers. -/
theorem count_congr {left right : Governor} (settings : left.settings = right.settings)
    (inFlight : left.inFlight = right.inFlight) (signal : Signal) :
    (left.count signal).1.inFlight = (right.count signal).1.inFlight ∧
      (left.count signal).2 = (right.count signal).2 := by
  obtain ⟨_, _, _, _⟩ := left
  obtain ⟨_, _, _, _⟩ := right
  dsimp only at settings inFlight
  subst settings inFlight
  cases signal with
  | admitted | duplicate => exact ⟨rfl, rfl⟩
  | completed =>
      unfold count
      dsimp only
      split <;> exact ⟨rfl, rfl⟩

theorem countAfter_congr {left right : Governor} (settings : left.settings = right.settings)
    (inFlight : left.inFlight = right.inFlight) (signal : Signal) :
    left.countAfter signal = right.countAfter signal := by
  rw [countAfter, countAfter, (count_congr settings inFlight signal).1, settings, inFlight]

theorem given_congr {left right : Governor} (settings : left.settings = right.settings)
    (inFlight : left.inFlight = right.inFlight) (signal : Signal) :
    left.given signal = right.given signal := by
  have applies : ({ left with inFlight := left.countAfter signal } : Governor).applies =
      ({ right with inFlight := right.countAfter signal } : Governor).applies := by
    funext command
    cases command <;> simp only [Governor.applies, settings, countAfter_congr settings inFlight]
  rw [given, given, applies, (count_congr settings inFlight signal).2, settings]

private theorem raise_eq_raiseWith (governor : Governor) (signal : Signal) :
    ∃ inner, governor.raise signal = raiseWith inner signal governor := by
  unfold raise
  cases governor.fleet.consumers.size with
  | zero => exact ⟨_, rfl⟩
  | succ depth => exact ⟨_, rfl⟩

theorem given_eq_some {governor : Governor} {signal : Signal} {command : Command}
    (told : governor.given signal = some command) :
    (governor.count signal).2.2 = some command ∧
      ({ governor with inFlight := governor.countAfter signal } : Governor).applies command =
        true := by
  unfold given at told
  split at told
  · exact Option.filter_eq_some_iff.mp told
  · simp at told

theorem count_of_enabled {governor : Governor} (enabled : governor.settings.enabled = true)
    (signal : Signal) :
    (governor.count signal).1 = { governor with inFlight := governor.countAfter signal } := by
  rw [countAfter, enabled, if_pos rfl]
  exact count_eq governor signal

/-- A signal moves the count, and a pass gives the command that the count calls for. -/
theorem raiseWith_eq (inner : Signal → Governor → Governor × List Event) (signal : Signal)
    (governor : Governor) :
    (raiseWith inner signal governor).1 =
      match governor.given signal with
      | none => { governor with inFlight := governor.countAfter signal }
      | some command =>
          (pass inner command (governor.fleet.registry.handles governor.topic)
            { governor with inFlight := governor.countAfter signal }).1 := by
  cases enabled : governor.settings.enabled with
  | false => simp [raiseWith, countAfter, given, enabled]
  | true =>
      have frame := count_of_enabled enabled signal
      rw [raiseWith, given, enabled, if_pos rfl, if_pos rfl]
      generalize governor.count signal = outcome at frame
      obtain ⟨moved, events, command⟩ := outcome
      dsimp only at frame
      subst frame
      cases command with
      | none => rfl
      | some command =>
          rw [Option.filter_some]
          by_cases applies : ({ governor with
            inFlight := governor.countAfter signal } : Governor).applies command = true
          · rw [if_pos applies]
          · rw [if_neg applies]
            exact congrArg Prod.fst (pass_of_idle (Bool.eq_false_iff.mpr applies))

/-- A signal among consumers that raise nothing, whatever they would raise in turn. -/
theorem raiseWith_eq_of_quiet (inner : Signal → Governor → Governor × List Event)
    {governor : Governor} {signal : Signal} (quiet : governor.Quiet signal) :
    (raiseWith inner signal governor).1 =
      { governor with
        inFlight := governor.countAfter signal
        fleet :=
          match governor.given signal with
          | none => governor.fleet
          | some command =>
              governor.fleet.prompt command
                (governor.fleet.registry.handles governor.topic) } := by
  rw [raiseWith_eq]
  cases told : governor.given signal with
  | none => rfl
  | some command =>
      obtain ⟨called, applies⟩ := given_eq_some told
      have passed : (pass inner command (governor.fleet.registry.handles governor.topic)
          { governor with inFlight := governor.countAfter signal }).1 = _ :=
        pass_eq (quiet command called)
      dsimp only
      rw [passed, if_pos applies]

/-- A signal among consumers that raise nothing. -/
theorem raise_eq {governor : Governor} {signal : Signal} (quiet : governor.Quiet signal) :
    (governor.raise signal).1 =
      { governor with
        inFlight := governor.countAfter signal
        fleet :=
          match governor.given signal with
          | none => governor.fleet
          | some command =>
              governor.fleet.prompt command
                (governor.fleet.registry.handles governor.topic) } := by
  obtain ⟨inner, same⟩ := raise_eq_raiseWith governor signal
  rw [same, raiseWith_eq_of_quiet inner quiet]

theorem consumer_raise {governor : Governor} {signal : Signal} (quiet : governor.Quiet signal)
    (name : String) :
    (governor.raise signal).1.fleet.consumer name =
      match governor.given signal with
      | none => governor.fleet.consumer name
      | some command =>
          (Consumer.heed command)^[(governor.fleet.registry.handles governor.topic).count name]
            (governor.fleet.consumer name) := by
  rw [raise_eq quiet]
  dsimp only
  split
  · rfl
  · exact Fleet.consumer_prompt ..

/-- What happens to calm consumers leaves the settings and the registry alone. -/
structure Kept (before after : Governor) : Prop where
  settings : after.settings = before.settings
  topic : after.topic = before.topic
  registry : after.fleet.registry = before.fleet.registry
  afterResume : ∀ name,
    (after.fleet.consumer name).afterResume = (before.fleet.consumer name).afterResume

theorem Kept.refl (governor : Governor) : Kept governor governor := ⟨rfl, rfl, rfl, fun _ => rfl⟩

theorem Kept.trans {before middle after : Governor} (first : Kept before middle)
    (second : Kept middle after) : Kept before after :=
  ⟨second.settings.trans first.settings, second.topic.trans first.topic,
    second.registry.trans first.registry,
    fun name => (second.afterResume name).trans (first.afterResume name)⟩

theorem Kept.calm {before after : Governor} (kept : Kept before after) (calm : before.Calm) :
    after.Calm := by
  intro name member
  rw [kept.registry, kept.topic] at member
  rw [kept.afterResume, calm name member]

theorem kept_raise {governor : Governor} (calm : governor.Calm) (signal : Signal) :
    Kept governor (governor.raise signal).1 := by
  refine ⟨?_, ?_, ?_, ?_⟩
  · rw [raise_eq (calm.quiet _)]
  · rw [raise_eq (calm.quiet _)]
  · rw [raise_eq (calm.quiet _)]
    dsimp only
    split
    · rfl
    · exact Fleet.registry_prompt ..
  · intro name
    rw [consumer_raise (calm.quiet _)]
    split
    · rfl
    · exact Consumer.afterResume_iterate_heed _

/-- After the move of the count the consumers report how they took the command. -/
theorem raise_events {governor : Governor} {signal : Signal} (quiet : governor.Quiet signal)
    (enabled : governor.settings.enabled = true) :
    ∃ replies, (governor.raise signal).2 = (governor.count signal).2.1 ++ replies ∧
      ∀ event ∈ replies, event.IsReply := by
  obtain ⟨inner, same⟩ := raise_eq_raiseWith governor signal
  have frame := count_eq governor signal
  unfold Quiet at quiet
  rw [same, raiseWith, enabled, if_pos rfl]
  generalize governor.count signal = outcome at frame quiet
  obtain ⟨moved, events, command⟩ := outcome
  dsimp only at frame quiet
  cases command with
  | none => exact ⟨[], (List.append_nil _).symm, by simp⟩
  | some command =>
      refine ⟨_, rfl, fun event member => mem_pass ?_ member⟩
      rw [frame]
      exact quiet command rfl

/-- Only the move of the count reports shortfalls. -/
theorem count_shortfall_raise {governor : Governor} {signal : Signal}
    (quiet : governor.Quiet signal) (cause : Shortfall) :
    (governor.raise signal).2.count (.shortfall cause) =
      if governor.settings.enabled then (governor.count signal).2.1.count (.shortfall cause)
      else 0 := by
  cases enabled : governor.settings.enabled with
  | false =>
      obtain ⟨inner, same⟩ := raise_eq_raiseWith governor signal
      simp [same, raiseWith, enabled]
  | true =>
      obtain ⟨replies, same, took⟩ := raise_events quiet enabled
      have none : replies.count (.shortfall cause) = 0 := List.count_eq_zero.mpr (took _)
      rw [same, List.count_append, none, if_pos rfl, Nat.add_zero]

/-! ## The count and the watermarks -/

theorem toNat_saturatingAdd (left right : UInt64) :
    (saturatingAdd left right).toNat = min (left.toNat + right.toNat) (UInt64.size - 1) := by
  unfold saturatingAdd
  split
  · rename_i fits
    rw [UInt64.toNat_add, Nat.mod_eq_of_lt fits]
    omega
  · rename_i beyond
    rw [UInt64.toNat_ofNat']
    simp only [UInt64.size] at beyond ⊢
    omega

theorem add_le_saturatingAdd (left right : UInt64) : left + right ≤ saturatingAdd left right := by
  have wrapped := (left + right).toNat_lt_size
  have modulo := Nat.mod_le (left.toNat + right.toNat) UInt64.size
  rw [UInt64.le_iff_toNat_le, toNat_saturatingAdd]
  rw [UInt64.toNat_add] at wrapped ⊢
  simp only [UInt64.size] at wrapped modulo ⊢
  omega

theorem toNat_saturatingSub (left right : UInt64) :
    (saturatingSub left right).toNat = left.toNat - right.toNat := by
  unfold saturatingSub
  split
  · rename_i fits
    exact UInt64.toNat_sub_of_le _ _ fits
  · rename_i larger
    have less := UInt64.lt_iff_toNat_lt.mp (UInt64.not_le.mp larger)
    simp only [UInt64.toNat_zero]
    omega

theorem toNat_sub_one {count : UInt64} (busy : count ≠ 0) :
    (count - 1).toNat + 1 = count.toNat := by
  have positive : 1 ≤ count.toNat :=
    Nat.one_le_iff_ne_zero.mpr fun zero => busy (UInt64.toNat_inj.mp zero)
  have difference : (count - 1).toNat = count.toNat - 1 :=
    UInt64.toNat_sub_of_le _ _ (UInt64.le_iff_toNat_le.mpr positive)
  omega

/-- A signal does not take the count beyond its greatest value. -/
def Room (governor : Governor) : Signal → Prop
  | .admitted count => governor.inFlight.toNat + count.toNat < UInt64.size
  | .duplicate _ | .completed => True

theorem Room.toNat_add {governor : Governor} {count : UInt64}
    (room : governor.Room (.admitted count)) :
    (governor.inFlight + count).toNat = governor.inFlight.toNat + count.toNat := by
  rw [UInt64.toNat_add, Nat.mod_eq_of_lt room]

section Given

variable {governor : Governor} (enabled : governor.settings.enabled = true)
include enabled

theorem countAfter_eq (signal : Signal) :
    governor.countAfter signal = (governor.count signal).1.inFlight := by
  rw [countAfter, enabled, if_pos rfl]

/-- The consumers are told to pause if the count as it is then reaches the high watermark. -/
theorem given_admitted (count : UInt64) :
    governor.given (.admitted count) =
      if governor.settings.high ≤ governor.inFlight + count then some .pause else none := by
  have less := add_le_saturatingAdd governor.inFlight count
  rw [given, enabled, if_pos rfl, countAfter_eq enabled]
  simp only [Governor.count, pauseAt]
  by_cases reached : governor.settings.high ≤ governor.inFlight + count
  · rw [if_pos reached, if_pos (UInt64.le_trans reached less), Option.filter_some]
    simp [applies, reached]
  · rw [if_neg reached]
    split
    · simp [Option.filter_some, applies, reached]
    · rfl

theorem given_duplicate (count : UInt64) :
    governor.given (.duplicate count) =
      if saturatingSub governor.inFlight count ≤ governor.settings.low then some .resume
      else none := by
  rw [given, enabled, if_pos rfl, countAfter_eq enabled]
  simp only [Governor.count, resumeAt]
  split
  · rename_i drained
    simp [Option.filter_some, applies, drained]
  · rfl

theorem given_completed (busy : governor.inFlight ≠ 0) :
    governor.given .completed =
      if governor.inFlight - 1 ≤ governor.settings.low then some .resume else none := by
  rw [given, enabled, if_pos rfl, countAfter_eq enabled]
  simp only [Governor.count, resumeAt, if_neg busy]
  split
  · rename_i drained
    simp [Option.filter_some, applies, drained]
  · rfl

end Given

/-- A chunk that was counted can be taken back without falling short. -/
theorem raise_taken_back {governor : Governor} (calm : governor.Calm) {count : UInt64}
    (room : governor.Room (.admitted count)) :
    ((governor.raise (.admitted count)).1.raise (.duplicate count)).1.inFlight =
        governor.inFlight ∧
      ∀ cause, (governor.raise (.admitted count)).2.count (.shortfall cause) = 0 ∧
        ((governor.raise (.admitted count)).1.raise (.duplicate count)).2.count
          (.shortfall cause) = 0 := by
  have kept := kept_raise calm (.admitted count)
  have counted : (governor.raise (.admitted count)).1.inFlight =
      governor.countAfter (.admitted count) := by
    rw [raise_eq (calm.quiet _)]
  have corrected : ((governor.raise (.admitted count)).1.raise (.duplicate count)).1.inFlight =
      (governor.raise (.admitted count)).1.countAfter (.duplicate count) := by
    rw [raise_eq ((kept.calm calm).quiet _)]
  cases enabled : governor.settings.enabled with
  | false => simp [corrected, counted, countAfter, count_shortfall_raise (calm.quiet _),
      count_shortfall_raise ((kept.calm calm).quiet _), kept.settings, enabled]
  | true =>
      have larger : count ≤ governor.inFlight + count := by
        rw [UInt64.le_iff_toNat_le, room.toNat_add]
        omega
      have moved : (governor.raise (.admitted count)).1.inFlight = governor.inFlight + count := by
        rw [counted, countAfter_eq enabled]
        rfl
      refine ⟨?_, fun cause => ⟨?_, ?_⟩⟩
      · rw [corrected, countAfter, kept.settings, enabled, if_pos rfl, ← UInt64.toNat_inj]
        change (saturatingSub _ count).toNat = _
        rw [toNat_saturatingSub, moved, room.toNat_add]
        omega
      · rw [count_shortfall_raise (calm.quiet _)]
        simp [Governor.count]
      · rw [count_shortfall_raise ((kept.calm calm).quiet _)]
        simp [Governor.count, moved, UInt64.not_lt.mpr larger]

theorem given_pause {governor : Governor} {signal : Signal}
    (told : governor.given signal = some .pause) :
    governor.settings.high ≤ governor.countAfter signal :=
  of_decide_eq_true (given_eq_some told).2

theorem given_resume {governor : Governor} {signal : Signal}
    (told : governor.given signal = some .resume) :
    governor.countAfter signal ≤ governor.settings.low :=
  of_decide_eq_true (given_eq_some told).2

/-- No command is missed: without one the count passes neither watermark. -/
theorem given_none {governor : Governor} {signal : Signal} (room : governor.Room signal)
    (silent : governor.given signal = none) :
    (governor.countAfter signal ≤ governor.settings.low →
        governor.inFlight ≤ governor.settings.low) ∧
      (governor.settings.high ≤ governor.countAfter signal →
        governor.settings.high ≤ governor.inFlight) := by
  cases enabled : governor.settings.enabled with
  | false => simp [countAfter, enabled]
  | true =>
      rw [countAfter_eq enabled]
      cases signal with
      | admitted count =>
          have below : ¬governor.settings.high ≤ governor.inFlight + count := by
            simpa [given_admitted enabled] using silent
          simp only [Governor.count, UInt64.le_iff_toNat_le, room.toNat_add] at below ⊢
          omega
      | duplicate count =>
          have above : ¬saturatingSub governor.inFlight count ≤ governor.settings.low := by
            simpa [given_duplicate enabled] using silent
          simp only [Governor.count, UInt64.le_iff_toNat_le, toNat_saturatingSub] at above ⊢
          omega
      | completed =>
          by_cases empty : governor.inFlight = 0
          · simp [Governor.count, empty]
          · have difference := toNat_sub_one empty
            have above : ¬governor.inFlight - 1 ≤ governor.settings.low := by
              simpa [given_completed enabled empty] using silent
            simp only [Governor.count, empty, if_false, UInt64.le_iff_toNat_le] at above ⊢
            omega

end Governor
end Intake
